import Icn.Planetary.Peer
import Icn.Planetary.Settlement

/-!
# Agreement on executors

The nodes of a network agree on who executes a job: however their messages overtake each
other, arrive twice or get lost, and whatever others say about bids, receipts and statuses,
one node at most holds a job as assigned, and it never holds another one under the same
identifier (`assigned_of_reachable`).

The argument has two halves. `Informed` follows the messages: what a node holds came with
a message, and an assignment rests on an announcement and a bid. That there is one
assignment for a job is the rule for decisions, where the node that owns the job marks it as
assigned by the message that assigns it.
-/

open Foundation

namespace Icn

namespace Planetary

open Economics Identity Mesh Network

/-- A change of a node that leaves its jobs alone. -/
structure MeshNode.SameJobs (node node' : MeshNode) : Prop where
  localNodeDid : node'.localNodeDid = node.localNodeDid
  originated : node'.announcedOriginatedJobs = node.announcedOriginatedJobs
  assigned : node'.assignedByOriginator = node.assignedByOriginator

section Step

variable (lib : MeshLibrary)

theorem MeshNode.SameJobs.refl (node : MeshNode) : node.SameJobs node := ⟨rfl, rfl, rfl⟩

/-- A message changes no jobs, and adds at most the bid that it brings. -/
theorem handleMessage_cases (world : World) (fetched : Option ExecutionReceipt) (now : ℤ)
    (message : MeshProtocolMessage) :
    world.node.SameJobs (handleMessage lib world fetched now message).node ∧
      ((handleMessage lib world fetched now message).node.bids = world.node.bids ∨
        ∃ jobId bidder price comment, message = .jobBidV1 jobId bidder price comment ∧
          (handleMessage lib world fetched now message).node.bids =
            (world.node.storeBid ⟨jobId, bidder, price, now, comment⟩).bids) := by
  cases message with
  | jobInterestV1 jobId executorDid =>
      rw [handleMessage]
      split
      · exact ⟨⟨rfl, rfl, rfl⟩, .inl rfl⟩
      · exact ⟨.refl _, .inl rfl⟩
  | executionReceiptAvailableV1 jobId receiptCid executorDid =>
      have hdiscover : world.node.SameJobs
          (world.node.discover lib jobId receiptCid executorDid) ∧
          (world.node.discover lib jobId receiptCid executorDid).bids = world.node.bids := by
        rw [MeshNode.discover]
        split
        · exact ⟨.refl _, rfl⟩
        · exact ⟨⟨rfl, rfl, rfl⟩, rfl⟩
      rw [handleMessage]
      split
      · exact ⟨hdiscover.1, .inl hdiscover.2⟩
      · exact ⟨⟨hdiscover.1.localNodeDid, hdiscover.1.originated, hdiscover.1.assigned⟩,
          .inl hdiscover.2⟩
  | jobStatusUpdateV1 jobId executorDid status =>
      rw [handleMessage]
      split
      · exact ⟨⟨rfl, rfl, rfl⟩, .inl rfl⟩
      · exact ⟨.refl _, .inl rfl⟩
  | jobBidV1 jobId bidder price comment =>
      exact ⟨⟨rfl, rfl, rfl⟩, .inr ⟨jobId, bidder, price, comment, rfl, rfl⟩⟩

theorem node_settle (world : World) (k : ℕ) : (step lib world (.settle k)).node = world.node := by
  rw [step]
  split <;> rfl

/-- The assignments that get out are marked, and nothing else changes in the node. -/
theorem node_foldl_assignJobToExecutor (published : JobId → Bool)
    (assignments : List (JobId × Bid × MeshJob)) (world : World) :
    (assignments.foldl (assignJobToExecutor published) world).node =
      { world.node with
        assignedByOriginator := world.node.assignedByOriginator ∪
          ((assignments.filter fun assignment =>
            published assignment.1).map Prod.fst).toFinset } := by
  induction assignments generalizing world with
  | nil => simp
  | cons assignment assignments ih =>
      rw [List.foldl_cons, ih, assignJobToExecutor]
      cases hpublished : published assignment.1 with
      | false => simp [hpublished]
      | true => simp [hpublished]

theorem node_foldl_announceJob (jobs : List MeshJob) (world : World) :
    let node := (jobs.foldl (fun world job => step lib world (.announceJob job true)) world).node
    node.localNodeDid = world.node.localNodeDid ∧
      node.assignedByOriginator = world.node.assignedByOriginator ∧
      node.bids = world.node.bids ∧
      ∀ jobId manifest job, node.announcedOriginatedJobs.lookup jobId = some (manifest, job) →
        job ∈ jobs ∧ job.jobId = jobId ∨
          world.node.announcedOriginatedJobs.lookup jobId = some (manifest, job) := by
  induction jobs generalizing world with
  | nil => exact ⟨rfl, rfl, rfl, fun _ _ _ h => .inr h⟩
  | cons announced jobs ih =>
      obtain ⟨hdid, hassigned, hbids, hjobs⟩ := ih (step lib world (.announceJob announced true))
      refine ⟨hdid, hassigned, hbids, fun jobId manifest job hlookup => ?_⟩
      rcases hjobs jobId manifest job hlookup with ⟨hmem, hjob⟩ | hlookup
      · exact .inl ⟨List.mem_cons_of_mem announced hmem, hjob⟩
      · simp only [step, if_true, HashMap.lookup_insert_eq_ite] at hlookup
        split at hlookup
        · next hkey =>
          obtain ⟨-, rfl⟩ := Prod.mk.inj (Option.some.inj hlookup)
          exact .inl ⟨List.mem_cons_self, hkey.symm⟩
        · exact .inr hlookup

theorem mem_of_selectWinner {score : ℕ → lib.Score} {bids : List Bid} {bid : Bid}
    (h : selectWinner lib score bids = some bid) : bid ∈ bids := by
  have hfold : ∀ (entries : List (Bid × ℕ)) (best : lib.Score × Option Bid),
      (entries.foldl (fun best entry => if lib.gt (score entry.2) best.1 then
          (score entry.2, some entry.1) else best) best).2 = some bid →
        best.2 = some bid ∨ ∃ entry ∈ entries, entry.1 = bid := by
    intro entries
    induction entries with
    | nil => exact fun best hbest => .inl hbest
    | cons entry entries ih =>
        intro best hbest
        rcases ih _ hbest with hbest | ⟨other, hother, hbid⟩
        · simp only at hbest
          split at hbest
          · exact .inr ⟨entry, List.mem_cons_self, Option.some.inj hbest⟩
          · exact .inl hbest
        · exact .inr ⟨other, List.mem_cons_of_mem entry hother, hbid⟩
  rcases hfold bids.zipIdx _ h with hnone | ⟨entry, hentry, rfl⟩
  · cases hnone
  · exact List.fst_mem_of_mem_zipIdx hentry

theorem mem_assignmentsToMake {node : MeshNode} {score : JobId → ℕ → lib.Score}
    {assignment : JobId × Bid × MeshJob} (h : assignment ∈ assignmentsToMake lib node score) :
    (∃ manifest, node.announcedOriginatedJobs.lookup assignment.1 =
        some (manifest, assignment.2.2)) ∧
      ∃ bids, node.bids.lookup assignment.1 = some bids ∧ assignment.2.1 ∈ bids := by
  rw [assignmentsToMake_eq, List.mem_filterMap] at h
  obtain ⟨⟨jobId, manifest, job⟩, hentry, h⟩ := h
  split at h
  · cases h
  · obtain ⟨bids, hbids, h⟩ := Option.bind_eq_some_iff.mp h
    obtain ⟨bid, hwinner, rfl⟩ := Option.map_eq_some_iff.mp h
    exact ⟨⟨manifest, (lib.jobOrder.lookup_eq_some_iff _ _ _).mpr hentry⟩, bids, hbids,
      mem_of_selectWinner lib hwinner⟩

end Step

section Informed

variable {lib : PeerLibrary} {ι : Type} {did : ι → Did} {owner : JobId → ι}

/-- What a node knows of itself, and the messages that what it holds came with. -/
structure Informed (did : ι → Did) (owner : JobId → ι) (sent : List NetworkMessage) (i : ι)
    (peer : Peer) : Prop where
  self : peer.world.node.localNodeDid = did i
  queued : ∀ job ∈ peer.runtimeJobQueue, owner job.jobId = i
  originated : ∀ jobId manifest job,
    peer.world.node.announcedOriginatedJobs.lookup jobId = some (manifest, job) →
      job.jobId = jobId ∧ owner jobId = i ∧ .jobAnnouncementV1 job ∈ sent
  bids : ∀ jobId bids, peer.world.node.bids.lookup jobId = some bids → ∀ bid ∈ bids,
    ∃ price comment, .settling (.jobBidV1 jobId bid.bidder price comment) ∈ sent
  assigned : ∀ jobId details, peer.assignedJobs.lookup jobId = some details →
    ∃ originatorDid, .assignJobV1 jobId originatorDid (did i) details ∈ sent

/-- An assignment is made by the owner of the job, of a job that was announced, to somebody
in whose name a bid was made. -/
def Founded (did : ι → Did) (owner : JobId → ι) (sent : List NetworkMessage) :
    NetworkMessage → Prop
  | .assignJobV1 jobId originatorDid targetExecutorDid jobDetails =>
      originatorDid = did (owner jobId) ∧ jobDetails.jobId = jobId ∧
        .jobAnnouncementV1 jobDetails ∈ sent ∧
          ∃ price comment, .settling (.jobBidV1 jobId targetExecutorDid price comment) ∈ sent
  | _ => True

variable {sent : List NetworkMessage} {i : ι} {peer : Peer}

theorem Informed.mono (h : Informed did owner sent i peer) (more : List NetworkMessage) :
    Informed did owner (sent ++ more) i peer where
  self := h.self
  queued := h.queued
  originated jobId manifest job hlookup := by
    obtain ⟨hjob, howner, hmem⟩ := h.originated jobId manifest job hlookup
    exact ⟨hjob, howner, List.mem_append_left more hmem⟩
  bids jobId bids hlookup bid hbid := by
    obtain ⟨price, comment, hmem⟩ := h.bids jobId bids hlookup bid hbid
    exact ⟨price, comment, List.mem_append_left more hmem⟩
  assigned jobId details hlookup := by
    obtain ⟨originatorDid, hmem⟩ := h.assigned jobId details hlookup
    exact ⟨originatorDid, List.mem_append_left more hmem⟩

theorem Founded.mono {m : NetworkMessage} (h : Founded did owner sent m)
    (more : List NetworkMessage) : Founded did owner (sent ++ more) m := by
  cases m with
  | assignJobV1 jobId originatorDid targetExecutorDid jobDetails =>
      obtain ⟨horiginator, hjob, hannounced, price, comment, hbid⟩ := h
      exact ⟨horiginator, hjob, List.mem_append_left more hannounced, price, comment,
        List.mem_append_left more hbid⟩
  | _ => trivial

theorem informed_new (did : ι → Did) (owner : JobId → ι) (i : ι)
    (localRuntimeContext : Option (HashMap Cid ExecutionReceipt)) :
    Informed did owner [] i (Peer.new (did i) localRuntimeContext) where
  self := rfl
  queued _ hjob := nomatch hjob
  originated _ _ _ hlookup := nomatch hlookup
  bids _ _ hlookup := nomatch hlookup
  assigned _ _ hlookup := nomatch hlookup

theorem mem_of_mem_jobsToAnnounce {published : ℕ → Bool} {job : MeshJob}
    (h : job ∈ peer.jobsToAnnounce published) : job ∈ peer.runtimeJobQueue := by
  rw [Peer.jobsToAnnounce, List.mem_map] at h
  obtain ⟨entry, hentry, rfl⟩ := h
  exact List.fst_mem_of_mem_zipIdx (List.mem_filter.mp hentry).1

theorem Informed.announceJobs (h : Informed did owner sent i peer) (published : ℕ → Bool) :
    Informed did owner (sent ++ (peer.announceJobs lib published).2) i
      (peer.announceJobs lib published).1 := by
  obtain ⟨hdid, -, hbids, hjobs⟩ := node_foldl_announceJob lib.toMeshLibrary
    (peer.jobsToAnnounce published) peer.world
  have hmono := h.mono ((peer.jobsToAnnounce published).map .jobAnnouncementV1)
  refine ⟨hdid.trans h.self, fun _ hjob => (nomatch hjob), ?_, ?_, hmono.assigned⟩
  · intro jobId manifest job hlookup
    rcases hjobs jobId manifest job hlookup with ⟨hmem, rfl⟩ | hlookup
    · exact ⟨rfl, h.queued job (mem_of_mem_jobsToAnnounce hmem),
        List.mem_append_right _ (List.mem_map_of_mem hmem)⟩
    · exact hmono.originated jobId manifest job hlookup
  · intro jobId bids hlookup
    exact hmono.bids jobId bids (hbids ▸ hlookup)

theorem Informed.selectExecutors (h : Informed did owner sent i peer)
    (score : JobId → ℕ → lib.Score) (published : JobId → Bool) :
    Informed did owner (sent ++ (peer.selectExecutors lib score published).2) i
        (peer.selectExecutors lib score published).1 ∧
      ∀ m ∈ (peer.selectExecutors lib score published).2, Founded did owner sent m := by
  have hnode := node_foldl_assignJobToExecutor published
    (assignmentsToMake lib.toMeshLibrary peer.world.node score) peer.world
  have hmono := h.mono (peer.selectExecutors lib score published).2
  refine ⟨⟨?_, h.queued, ?_, ?_, hmono.assigned⟩, fun m hm => ?_⟩
  · exact (congrArg MeshNode.localNodeDid hnode).trans h.self
  · intro jobId manifest job hlookup
    exact hmono.originated jobId manifest job
      (congrArg MeshNode.announcedOriginatedJobs hnode ▸ hlookup)
  · intro jobId bids hlookup
    exact hmono.bids jobId bids (congrArg MeshNode.bids hnode ▸ hlookup)
  · obtain ⟨assignment, hassignment, rfl⟩ := List.mem_map.mp hm
    obtain ⟨⟨manifest, hjob⟩, bids, hbids, hbid⟩ :=
      mem_assignmentsToMake lib.toMeshLibrary (List.mem_filter.mp hassignment).1
    obtain ⟨hid, howner, hannounced⟩ := h.originated _ _ _ hjob
    exact ⟨howner.symm ▸ h.self, hid, hannounced, h.bids _ _ hbids _ hbid⟩

theorem Informed.hear (h : Informed did owner sent i peer) (fetched : Option ExecutionReceipt)
    (now : ℤ) {message : MeshProtocolMessage} (hmessage : .settling message ∈ sent) :
    Informed did owner sent i { peer with
      world := step lib.toMeshLibrary peer.world (.message message fetched now) } := by
  obtain ⟨hsame, hbids⟩ := handleMessage_cases lib.toMeshLibrary peer.world fetched now message
  refine ⟨hsame.localNodeDid.trans h.self, h.queued, ?_, ?_, h.assigned⟩
  · intro jobId manifest job hlookup
    exact h.originated jobId manifest job (hsame.originated ▸ hlookup)
  · intro jobId bids hlookup bid hbid
    change (handleMessage lib.toMeshLibrary peer.world fetched now message).node.bids.lookup
      jobId = some bids at hlookup
    rcases hbids with hbids | ⟨jobId', bidder, price, comment, rfl, hbids⟩
    · rw [hbids] at hlookup
      exact h.bids jobId bids hlookup bid hbid
    · rw [hbids, MeshNode.storeBid, HashMap.lookup_insert_eq_ite] at hlookup
      split at hlookup
      · next hjob =>
        subst hjob
        rw [← Option.some.inj hlookup] at hbid
        rcases List.mem_append.mp hbid with hbid | hbid
        · cases hbefore : peer.world.node.bids.lookup jobId with
          | none =>
              rw [hbefore] at hbid
              cases hbid
          | some before =>
              rw [hbefore] at hbid
              exact h.bids jobId before hbefore bid hbid
        · rw [List.mem_singleton.mp hbid]
          exact ⟨price, comment, hmessage⟩
      · exact h.bids jobId bids hlookup bid hbid

theorem Informed.acceptAssignment (h : Informed did owner sent i peer) {jobId : JobId}
    {originatorDid targetExecutorDid : Did} {jobDetails : MeshJob}
    (hmessage : .assignJobV1 jobId originatorDid targetExecutorDid jobDetails ∈ sent) :
    Informed did owner sent i (peer.acceptAssignment jobId targetExecutorDid jobDetails).1 := by
  rw [Peer.acceptAssignment]
  split
  · next htarget =>
    refine ⟨h.self, h.queued, h.originated, h.bids, fun jobId' details hlookup => ?_⟩
    simp only [HashMap.lookup_insert_eq_ite] at hlookup
    split at hlookup
    · next hjob =>
      subst hjob
      rw [← Option.some.inj hlookup, ← h.self, ← htarget]
      exact ⟨originatorDid, hmessage⟩
    · exact h.assigned jobId' details hlookup
  · exact h

variable (lib) in
/-- Nobody is assigned a job in answer to a message. -/
theorem exists_settling_of_receive (peer : Peer) (fetched : Option ExecutionReceipt) (now : ℤ)
    (message : NetworkMessage) :
    ∀ m ∈ (peer.receive lib fetched now message).2, ∃ answer, m = .settling answer := by
  intro m hm
  cases message with
  | jobAnnouncementV1 job =>
      simp only [Peer.receive, Peer.evaluateAndExpressInterest] at hm
      split at hm
      · exact ⟨_, List.mem_singleton.mp hm⟩
      · cases hm
  | assignJobV1 jobId originatorDid targetExecutorDid jobDetails =>
      rw [Peer.receive, Peer.acceptAssignment] at hm
      split at hm
      · exact ⟨_, List.mem_singleton.mp hm⟩
      · cases hm
  | settling message => cases hm

theorem inductive_informed [DecidableEq ι] (did : ι → Did) (owner : JobId → ι) :
    Inductive (meshNode lib) (meshSurroundings owner) (Informed did owner)
      (Founded did owner) where
  party_mono h := h.mono _
  message_mono h := h.mono _
  inject {sent m} hm := by
    cases m with
    | settling message => trivial
    | _ => exact hm.elim
  step {sent i peer event} _ h hmay harrival := by
    cases event with
    | queueJob job =>
        have hmono := h.mono []
        refine ⟨⟨h.self, fun job' hjob' => ?_, hmono.originated, hmono.bids, hmono.assigned⟩,
          fun _ hm => nomatch hm⟩
        rcases List.mem_append.mp hjob' with hjob' | hjob'
        · exact h.queued job' hjob'
        · rw [List.mem_singleton.mp hjob']
          exact hmay
    | announceJobs published =>
        refine ⟨h.announceJobs published, fun m hm => ?_⟩
        obtain ⟨job, -, rfl⟩ := List.mem_map.mp hm
        trivial
    | selectExecutors score published =>
        obtain ⟨hself, hfounded⟩ := h.selectExecutors score published
        exact ⟨hself, fun m hm => (hfounded m hm).mono _⟩
    | settle k =>
        have hnode := node_settle lib.toMeshLibrary peer.world k
        have hmono := h.mono []
        refine ⟨⟨(congrArg MeshNode.localNodeDid hnode).trans h.self, h.queued, ?_, ?_,
          hmono.assigned⟩, fun _ hm => nomatch hm⟩
        · intro jobId manifest job hlookup
          exact hmono.originated jobId manifest job
            (congrArg MeshNode.announcedOriginatedJobs hnode ▸ hlookup)
        · intro jobId bids hlookup
          exact hmono.bids jobId bids (congrArg MeshNode.bids hnode ▸ hlookup)
    | receive message fetched now =>
        have hmessage := harrival message rfl
        cases message with
        | jobAnnouncementV1 job =>
            have hmono := h.mono (peer.evaluateAndExpressInterest lib job).2
            refine ⟨⟨hmono.self, hmono.queued, hmono.originated, hmono.bids, hmono.assigned⟩,
              fun m hm => ?_⟩
            obtain ⟨message, rfl⟩ := exists_settling_of_receive lib peer fetched now _ m hm
            trivial
        | assignJobV1 jobId originatorDid targetExecutorDid jobDetails =>
            refine ⟨(h.acceptAssignment hmessage).mono _, fun m hm => ?_⟩
            obtain ⟨message, rfl⟩ := exists_settling_of_receive lib peer fetched now _ m hm
            trivial
        | settling message => exact ⟨(h.hear fetched now hmessage).mono [], fun _ hm => nomatch hm⟩

end Informed

section Decision

variable {lib : PeerLibrary} {ι : Type} {did : ι → Did} {owner : JobId → ι}

/-- The message by which a node decides who executes a job. -/
def Decides (did : ι → Did) (i : ι) (jobId : JobId) (m : NetworkMessage) : Prop :=
  ∃ targetExecutorDid jobDetails, m = .assignJobV1 jobId (did i) targetExecutorDid jobDetails

def Marked (peer : Peer) (jobId : JobId) : Prop :=
  jobId ∈ peer.world.node.assignedByOriginator

theorem keeps_step (peer : Peer) (event : PeerEvent lib) :
    (peer.step lib event).1.world.node.localNodeDid = peer.world.node.localNodeDid ∧
      peer.world.node.assignedByOriginator ⊆
        (peer.step lib event).1.world.node.assignedByOriginator := by
  cases event with
  | queueJob job => exact ⟨rfl, Finset.Subset.refl _⟩
  | announceJobs published =>
      obtain ⟨hdid, hassigned, -⟩ := node_foldl_announceJob lib.toMeshLibrary
        (peer.jobsToAnnounce published) peer.world
      exact ⟨hdid, hassigned.ge⟩
  | selectExecutors score published =>
      have hnode := node_foldl_assignJobToExecutor published
        (assignmentsToMake lib.toMeshLibrary peer.world.node score) peer.world
      refine ⟨(congrArg MeshNode.localNodeDid hnode).trans rfl, ?_⟩
      exact Finset.subset_union_left.trans (congrArg MeshNode.assignedByOriginator hnode).ge
  | settle k =>
      have hnode := node_settle lib.toMeshLibrary peer.world k
      exact ⟨congrArg MeshNode.localNodeDid hnode,
        (congrArg MeshNode.assignedByOriginator hnode).ge⟩
  | receive message fetched now =>
      cases message with
      | jobAnnouncementV1 job => exact ⟨rfl, Finset.Subset.refl _⟩
      | assignJobV1 jobId originatorDid targetExecutorDid jobDetails =>
          rw [Peer.step, Peer.receive, Peer.acceptAssignment]
          split <;> exact ⟨rfl, Finset.Subset.refl _⟩
      | settling message =>
          obtain ⟨hsame, -⟩ :=
            handleMessage_cases lib.toMeshLibrary peer.world fetched now message
          exact ⟨hsame.localNodeDid, hsame.assigned.ge⟩

theorem selects_of_decides {peer : Peer} {event : PeerEvent lib} {m : NetworkMessage}
    (hm : m ∈ (peer.step lib event).2) {j : ι} {jobId : JobId} (h : Decides did j jobId m) :
    ∃ score published, event = .selectExecutors score published := by
  obtain ⟨targetExecutorDid, jobDetails, rfl⟩ := h
  cases event with
  | selectExecutors score published => exact ⟨score, published, rfl⟩
  | announceJobs published =>
      obtain ⟨job, -, hjob⟩ := List.mem_map.mp hm
      cases hjob
  | receive message fetched now =>
      obtain ⟨answer, hanswer⟩ := exists_settling_of_receive lib peer fetched now message _ hm
      cases hanswer
  | _ => cases hm

theorem marked_of_mem_assignmentsSent {peer : Peer} {score : JobId → ℕ → lib.Score}
    {published : JobId → Bool} {assignment : JobId × Bid × MeshJob}
    (h : assignment ∈ peer.assignmentsSent lib score published) :
    ¬ Marked peer assignment.1 ∧
      Marked (peer.selectExecutors lib score published).1 assignment.1 := by
  have hnode := node_foldl_assignJobToExecutor published
    (assignmentsToMake lib.toMeshLibrary peer.world.node score) peer.world
  refine ⟨(assignmentsToMake_fresh lib.toMeshLibrary _ score).2 _ (List.mem_filter.mp h).1, ?_⟩
  refine (congrArg MeshNode.assignedByOriginator hnode).ge (Finset.mem_union_right _ ?_)
  exact List.mem_toFinset.mpr (List.mem_map_of_mem h)

theorem writeOnce_decides [DecidableEq ι] (hdid : Function.Injective did) (owner : JobId → ι) :
    WriteOnce (meshNode lib) (meshSurroundings owner)
      (fun i peer => peer.world.node.localNodeDid = did i) (Decides did) Marked where
  self event h := (keeps_step _ event).1.trans h
  kept event hmarked := (keeps_step _ event).2 hmarked
  own {i peer} event h m hm j jobId hdecides := by
    obtain ⟨score, published, rfl⟩ := selects_of_decides hm hdecides
    obtain ⟨targetExecutorDid, jobDetails, rfl⟩ := hdecides
    obtain ⟨assignment, hassignment, heq⟩ := List.mem_map.mp hm
    obtain ⟨rfl, hself, -⟩ := NetworkMessage.assignJobV1.inj heq
    exact ⟨hdid (hself.symm.trans h), marked_of_mem_assignmentsSent hassignment⟩
  apart peer event := by
    cases event with
    | selectExecutors score published =>
        have hnodup : ((peer.assignmentsSent lib score published).map Prod.fst).Nodup :=
          (List.filter_sublist.map Prod.fst).nodup
            (assignmentsToMake_fresh lib.toMeshLibrary peer.world.node score).1
        refine List.pairwise_map.mpr ((List.pairwise_map.mp hnodup).imp ?_)
        rintro assignment assignment' hne j jobId ⟨_, _, heq⟩ ⟨_, _, heq'⟩
        obtain ⟨rfl, -⟩ := NetworkMessage.assignJobV1.inj heq
        exact hne (NetworkMessage.assignJobV1.inj heq').1.symm
    | _ =>
        refine List.pairwise_of_forall_mem_list fun m hm m' _ j jobId hdecides _ => ?_
        obtain ⟨score, published, hevent⟩ := selects_of_decides hm hdecides
        cases hevent
  outside m hm j jobId := by
    rintro ⟨targetExecutorDid, jobDetails, rfl⟩
    exact hm

theorem mem_assignedJobs_step {peer : Peer} {jobId : JobId} (h : jobId ∈ peer.assignedJobs)
    (event : PeerEvent lib) : jobId ∈ (peer.step lib event).1.assignedJobs := by
  cases event with
  | receive message fetched now =>
      cases message with
      | assignJobV1 jobId' originatorDid targetExecutorDid jobDetails =>
          rw [Peer.step, Peer.receive, Peer.acceptAssignment]
          split
          · exact Finmap.mem_insert.mpr (.inr h)
          · exact h
      | _ => exact h
  | _ => exact h

end Decision

section Agreement

variable {lib : PeerLibrary} {ι : Type} [DecidableEq ι] {did : ι → Did} {owner : JobId → ι}
  {contexts : ι → Option (HashMap Cid ExecutionReceipt)} {net net' : Net ι Peer NetworkMessage}

def meshNet (did : ι → Did) (contexts : ι → Option (HashMap Cid ExecutionReceipt)) :
    Net ι Peer NetworkMessage :=
  .start fun i => .new (did i) (contexts i)

theorem holds_of_reachable
    (h : Reachable (meshNode lib) (meshSurroundings owner) (meshNet did contexts) net) :
    Holds (Informed did owner) (Founded did owner) net :=
  (inductive_informed did owner).holds_of_reachable h
    ⟨fun i => informed_new did owner i (contexts i), fun _ hm => nomatch hm⟩

theorem exists_decides_of_assigned
    (h : Reachable (meshNode lib) (meshSurroundings owner) (meshNet did contexts) net)
    {jobId : JobId} {i : ι} {details : MeshJob}
    (hassigned : (net.parties i).assignedJobs.lookup jobId = some details) :
    .assignJobV1 jobId (did (owner jobId)) (did i) details ∈ net.sent := by
  obtain ⟨hparties, hsent⟩ := holds_of_reachable h
  obtain ⟨originatorDid, hmem⟩ := (hparties i).assigned jobId details hassigned
  obtain ⟨rfl, -⟩ := hsent _ hmem
  exact hmem

theorem decidedOnce_of_reachable (hdid : Function.Injective did)
    (h : Reachable (meshNode lib) (meshSurroundings owner) (meshNet did contexts) net) :
    DecidedOnce (fun i peer => peer.world.node.localNodeDid = did i) (Decides did) Marked net :=
  (writeOnce_decides hdid owner).decidedOnce_of_reachable h (decidedOnce_start fun _ => rfl)

theorem eq_of_assigned (hdid : Function.Injective did)
    (h : Reachable (meshNode lib) (meshSurroundings owner) (meshNet did contexts) net)
    {jobId : JobId} {i j : ι} {details details' : MeshJob}
    (hassigned : .assignJobV1 jobId (did (owner jobId)) (did i) details ∈ net.sent)
    (hassigned' : .assignJobV1 jobId (did (owner jobId)) (did j) details' ∈ net.sent) :
    j = i ∧ details' = details := by
  have heq := (decidedOnce_of_reachable hdid h).eq_of_decides hassigned' hassigned
    ⟨did j, details', rfl⟩ ⟨did i, details, rfl⟩
  obtain ⟨-, -, htarget, hdetails⟩ := NetworkMessage.assignJobV1.inj heq
  exact ⟨hdid htarget, hdetails⟩

/-- **The network agrees on who executes a job.** Nodes with different DIDs run the event
loop, every job identifier is queued at one of them only, and messages are delayed, repeated,
reordered and lost in any way while anybody sends bids, interests, statuses and receipts in
anybody's name. Then a job that a node has been assigned is assigned to no other node, under
no other contents, and so it stays whatever happens; the job is one that was announced, its
owner has marked it, and a bid was made in the name of the node. -/
theorem assigned_of_reachable (hdid : Function.Injective did)
    (h : Reachable (meshNode lib) (meshSurroundings owner) (meshNet did contexts) net)
    {jobId : JobId} {i : ι} {details : MeshJob}
    (hassigned : (net.parties i).assignedJobs.lookup jobId = some details) :
    (∀ net', Reachable (meshNode lib) (meshSurroundings owner) net net' →
      (net'.parties i).assignedJobs.lookup jobId = some details ∧
        ∀ j, j ≠ i → jobId ∉ (net'.parties j).assignedJobs) ∧
      details.jobId = jobId ∧ .jobAnnouncementV1 details ∈ net.sent ∧
        Marked (net.parties (owner jobId)) jobId ∧
          ∃ price comment, .settling (.jobBidV1 jobId (did i) price comment) ∈ net.sent := by
  have hmem := exists_decides_of_assigned h hassigned
  refine ⟨fun net' hreach => ?_, ?_⟩
  · have h' := h.trans hreach
    have hmem' := hreach.mem_sent hmem
    constructor
    · have hkept := hreach.party_of_kept (K := fun peer => jobId ∈ peer.assignedJobs)
        (fun _ event hmem => mem_assignedJobs_step hmem event)
        (Finmap.mem_iff.mpr ⟨details, hassigned⟩)
      obtain ⟨details', hdetails'⟩ := Finmap.mem_iff.mp hkept
      rw [hdetails',
        (eq_of_assigned hdid h' hmem' (exists_decides_of_assigned h' hdetails')).2]
    · intro j hne hj
      obtain ⟨details', hdetails'⟩ := Finmap.mem_iff.mp hj
      exact hne (eq_of_assigned hdid h' hmem' (exists_decides_of_assigned h' hdetails')).1
  · obtain ⟨-, hid, hannounced, hbid⟩ := (holds_of_reachable h).2 _ hmem
    exact ⟨hid, hannounced, (decidedOnce_of_reachable hdid h).marked _ hmem _ _ ⟨_, _, rfl⟩, hbid⟩

section Sample

/-- A library that knows one receipt, and the JSON of jobs that ask for nothing. -/
noncomputable def samplePeerLibrary : PeerLibrary where
  toMeshLibrary := sampleLibrary
  requiredResources json := if json = "{}" then some ∅ else none

def twoDids : Bool → Did
  | false => ⟨neutralDid⟩
  | true => ⟨basePointDid⟩

theorem twoDids_injective : Function.Injective twoDids := by
  intro i j h
  cases i <;> cases j <;> first | rfl | exact absurd h (by decide)

def twoPeers (originator executor : Peer) : Bool → Peer
  | false => originator
  | true => executor

/-- The network of the two, in which the originator owns every job. -/
abbrev ReachableTwo : Net Bool Peer NetworkMessage → Prop :=
  Reachable (meshNode samplePeerLibrary) (meshSurroundings fun _ => false)
    (meshNet twoDids fun _ => some ∅)

variable {originator originator' executor executor' : Peer} {sent messages : List NetworkMessage}

theorem ReachableTwo.step_originator (h : ReachableTwo ⟨twoPeers originator executor, sent⟩)
    (event : PeerEvent samplePeerLibrary)
    (harrival : ∀ m ∈ (meshNode samplePeerLibrary).arrival event, m ∈ sent)
    (hstep : originator.step samplePeerLibrary event = (originator', messages)) :
    ReachableTwo ⟨twoPeers originator' executor, sent ++ messages⟩ := by
  have hmay : (meshSurroundings fun _ => false).may false event := by
    cases event <;> trivial
  have hact := Reachable.act h false event hmay harrival
  have hparties : Function.update (twoPeers originator executor) false originator' =
      twoPeers originator' executor := by
    funext i
    cases i <;> rfl
  have hnode : (meshNode samplePeerLibrary).step (twoPeers originator executor false) event =
      (originator', messages) := hstep
  simpa only [hnode, hparties] using hact

theorem ReachableTwo.step_executor (h : ReachableTwo ⟨twoPeers originator executor, sent⟩)
    (message : NetworkMessage) (hmessage : message ∈ sent)
    (hstep : executor.receive samplePeerLibrary none 0 message = (executor', messages)) :
    ReachableTwo ⟨twoPeers originator executor', sent ++ messages⟩ := by
  have hact := Reachable.act h true (.receive message none 0) trivial fun m hm => by
    rwa [← Option.some.inj hm]
  have hparties : Function.update (twoPeers originator executor) true executor' =
      twoPeers originator executor' := by
    funext i
    cases i <;> rfl
  have hnode : (meshNode samplePeerLibrary).step (twoPeers originator executor true)
      (.receive message none 0) = (executor', messages) := hstep
  simpa only [hnode, hparties] using hact

theorem snd_selectExecutors_sample {peer : Peer} {entry : JobManifest × MeshJob} (bid : Bid)
    (hjobs : peer.world.node.announcedOriginatedJobs =
      (∅ : HashMap JobId _).insert bid.jobId entry)
    (hassigned : peer.world.node.assignedByOriginator = ∅)
    (hbids : peer.world.node.bids.lookup bid.jobId = some [bid]) :
    (peer.selectExecutors samplePeerLibrary (fun _ _ => true) fun _ => true).2 =
      [.assignJobV1 bid.jobId peer.world.node.localNodeDid bid.bidder entry.2] := by
  have hsent : peer.assignmentsSent samplePeerLibrary (fun _ _ => true) (fun _ => true) =
      [(bid.jobId, bid, entry.2)] :=
    congrArg (List.filter fun _ => true) (assignmentsToMake_sample bid hjobs hassigned hbids)
  exact congrArg (List.map fun assignment => NetworkMessage.assignJobV1 assignment.1
    peer.world.node.localNodeDid assignment.2.1.bidder assignment.2.2) hsent

theorem reachableTwo_assigned : ∃ net, ReachableTwo net ∧
    (net.parties true).assignedJobs.lookup "test_job_123" = some sampleJob := by
  let bidden : Peer := ⟨⟨biddenNode, [], []⟩, [], ∅, ∅⟩
  let bidder : Peer := .new ⟨basePointDid⟩ (some ∅)
  let bid : NetworkMessage := .settling (.jobBidV1 "test_job_123" ⟨basePointDid⟩ 50 none)
  let assignment : NetworkMessage :=
    .assignJobV1 "test_job_123" ⟨neutralDid⟩ ⟨basePointDid⟩ sampleJob
  have hnew : meshNet twoDids (fun _ => some ∅) =
      ⟨twoPeers (.new ⟨neutralDid⟩ (some ∅)) bidder, []⟩ := by
    refine congrArg (Net.mk · []) (funext fun i => ?_)
    cases i <;> rfl
  have hstart : ReachableTwo ⟨twoPeers (.new ⟨neutralDid⟩ (some ∅)) bidder, []⟩ :=
    hnew ▸ Relation.ReflTransGen.refl
  have hqueued := hstart.step_originator (.queueJob sampleJob) (fun _ hm => nomatch hm) rfl
  have hannounced := hqueued.step_originator (.announceJobs fun _ => true)
    (fun _ hm => nomatch hm) rfl
  have hoffered := Reachable.inject hannounced bid trivial
  have hbidden : ReachableTwo ⟨twoPeers bidden bidder, [.jobAnnouncementV1 sampleJob, bid]⟩ :=
    ReachableTwo.step_originator hoffered (.receive bid none 0) (by simp [meshNode]) rfl
  have hjobs : bidden.world.node.announcedOriginatedJobs = (∅ : HashMap JobId _).insert
      sampleBid.jobId (⟨"test_job_123", ⟨neutralDid⟩⟩, sampleJob) := rfl
  have hselect : bidden.step samplePeerLibrary
      (.selectExecutors (fun _ _ => true) fun _ => true) =
        ((bidden.selectExecutors samplePeerLibrary (fun _ _ => true) fun _ => true).1,
          [assignment]) :=
    Prod.ext rfl (snd_selectExecutors_sample sampleBid hjobs rfl (Finmap.lookup_insert _))
  have hassigned := hbidden.step_originator (.selectExecutors (fun _ _ => true) fun _ => true)
    (fun _ hm => nomatch hm) hselect
  have haccept : bidder.receive samplePeerLibrary none 0 assignment =
      ({ bidder with
          assignedJobs := (∅ : HashMap JobId MeshJob).insert "test_job_123" sampleJob },
        [.settling (.jobStatusUpdateV1 "test_job_123" ⟨basePointDid⟩ .assigned)]) := by
    rw [Peer.receive, Peer.acceptAssignment]
    exact if_pos rfl
  have haccepted := hassigned.step_executor assignment (by simp) haccept
  exact ⟨_, haccepted, Finmap.lookup_insert _⟩

theorem assigned_of_reachable_two : ∃ net, ReachableTwo net ∧
    (net.parties true).assignedJobs.lookup "test_job_123" = some sampleJob ∧
      "test_job_123" ∉ (net.parties false).assignedJobs := by
  obtain ⟨net, hnet, hassigned⟩ := reachableTwo_assigned
  have hagree := (assigned_of_reachable twoDids_injective hnet hassigned).1 net .refl
  exact ⟨net, hnet, hassigned, hagree.2 false (by decide)⟩

end Sample

end Agreement

end Planetary

end Icn
