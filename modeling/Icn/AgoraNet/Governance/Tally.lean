import Mathlib.Data.List.Nodup
import Icn.Foundation.Run.Sequential
import Icn.AgoraNet.Governance.Proposals

/-!
# The tally of votes

Every proposal's counters are the number of stored votes for it, by kind. The
counters are words, so they are the tally up to wrapping in every run, and the
tally itself while there are fewer votes than a counter can count. A voter votes
once per proposal, every vote is about a proposal that was open and in time when
it was cast, closed proposals stay closed, and a refused vote is not counted.

What is needed of the world is that no two proposals draw the same id.
-/

open Foundation

namespace Icn

namespace AgoraNet

open Identity

def tally (votes : List Vote) (id : String) (voteType : VoteType) : ℕ :=
  votes.countP fun vote => vote.proposalId = id ∧ vote.voteType = voteType

def VoteCounts.ofVotes (votes : List Vote) (id : String) : VoteCounts where
  approve := UInt32.ofNat (tally votes id .approve)
  reject := UInt32.ofNat (tally votes id .reject)
  abstain := UInt32.ofNat (tally votes id .abstain)

theorem tally_append_of_ne (votes : List Vote) {vote : Vote} {id : String}
    (h : vote.proposalId ≠ id) (voteType : VoteType) :
    tally (votes ++ [vote]) id voteType = tally votes id voteType := by
  simp [tally, List.countP_append, h]

theorem tally_append_self (votes : List Vote) (vote : Vote) (voteType : VoteType) :
    tally (votes ++ [vote]) vote.proposalId voteType =
      tally votes vote.proposalId voteType + if vote.voteType = voteType then 1 else 0 := by
  simp [tally, List.countP_append, List.countP_singleton]

/-- A vote for another proposal leaves the counters. -/
theorem ofVotes_append_of_ne (votes : List Vote) {vote : Vote} {id : String}
    (h : vote.proposalId ≠ id) :
    VoteCounts.ofVotes (votes ++ [vote]) id = VoteCounts.ofVotes votes id := by
  simp only [VoteCounts.ofVotes, tally_append_of_ne votes h]

theorem ofVotes_append_self (votes : List Vote) (vote : Vote) :
    VoteCounts.ofVotes (votes ++ [vote]) vote.proposalId =
      (VoteCounts.ofVotes votes vote.proposalId).add vote.voteType := by
  simp only [VoteCounts.ofVotes, tally_append_self]
  cases vote.voteType with
  | approve => simp [VoteCounts.add, UInt32.ofNat_add]
  | reject => simp [VoteCounts.add, UInt32.ofNat_add]
  | abstain => simp [VoteCounts.add, UInt32.ofNat_add]

theorem tally_eq_zero {votes : List Vote} {id : String}
    (h : ∀ vote ∈ votes, vote.proposalId ≠ id) (voteType : VoteType) :
    tally votes id voteType = 0 := by
  apply List.countP_eq_zero.mpr
  intro vote hvote
  simp [h vote hvote]

def ProposalStore.ids (store : ProposalStore) : List String :=
  store.proposals.map fun proposal => proposal.summary.id

/-- While ids are distinct, changing the first proposal of an id changes the one
proposal of that id. -/
theorem updateProposal_eq_map {proposals : List ProposalDetail}
    (h : (proposals.map fun proposal => proposal.summary.id).Nodup) (id : String)
    (change : ProposalDetail → ProposalDetail) :
    updateProposal id change proposals =
      proposals.map fun proposal =>
        if proposal.summary.id = id then change proposal else proposal := by
  induction proposals with
  | nil => rfl
  | cons proposal proposals ih =>
      rw [List.map_cons, List.nodup_cons] at h
      rw [updateProposal, List.map_cons]
      by_cases hid : proposal.summary.id = id
      · rw [if_pos hid, if_pos hid]
        have hrest : proposals.map (fun other =>
            if other.summary.id = id then change other else other) = proposals := by
          conv_rhs => rw [← List.map_id proposals]
          apply List.map_congr_left
          intro other hother
          apply if_neg
          intro heq
          apply h.1
          rw [hid, ← heq]
          exact List.mem_map_of_mem hother
        rw [hrest]
      · rw [if_neg hid, if_neg hid, ih h.2]

theorem map_updateProposal {β : Type} (change : ProposalDetail → ProposalDetail)
    (read : ProposalDetail → β) (h : ∀ proposal, read (change proposal) = read proposal)
    (id : String) (proposals : List ProposalDetail) :
    (updateProposal id change proposals).map read = proposals.map read := by
  induction proposals with
  | nil => rfl
  | cons proposal proposals ih =>
      rw [updateProposal]
      split
      · rw [List.map_cons, List.map_cons, h]
      · rw [List.map_cons, List.map_cons, ih]

theorem exists_mem_updateProposal {proposal : ProposalDetail} {proposals : List ProposalDetail}
    (h : proposal ∈ proposals) (id : String) (change : ProposalDetail → ProposalDetail) :
    proposal ∈ updateProposal id change proposals ∨
      change proposal ∈ updateProposal id change proposals := by
  induction proposals with
  | nil => exact absurd h List.not_mem_nil
  | cons first proposals ih =>
      rw [updateProposal]
      rcases List.mem_cons.mp h with rfl | hrest
      · split
        · exact Or.inr List.mem_cons_self
        · exact Or.inl List.mem_cons_self
      · split
        · exact Or.inl (List.mem_cons_of_mem _ hrest)
        · rcases ih hrest with hsame | hchanged
          · exact Or.inl (List.mem_cons_of_mem _ hsame)
          · exact Or.inr (List.mem_cons_of_mem _ hchanged)

/-- Counters and votes agree. -/
structure Tallied (store : ProposalStore) : Prop where
  ids_nodup : store.ids.Nodup
  counts : ∀ proposal ∈ store.proposals,
    proposal.summary.voteCounts = VoteCounts.ofVotes store.votes proposal.summary.id
  voters_nodup : (store.votes.map fun vote => (vote.proposalId, vote.voterDid)).Nodup
  refers : ∀ vote ∈ store.votes, vote.proposalId ∈ store.ids

theorem tallied_new : Tallied ProposalStore.new where
  ids_nodup := List.nodup_nil
  counts _ h := absurd h List.not_mem_nil
  voters_nodup := List.nodup_nil
  refers _ h := absurd h List.not_mem_nil

theorem ids_create (payload : NewProposalRequest) (now : Timestamp) (uuid : Uuid)
    (store : ProposalStore) :
    (createProposalHandler payload now uuid store).2.ids = store.ids ++ [proposalId uuid] := by
  simp [createProposalHandler, ProposalStore.ids, newProposal]

theorem tallied_create {store : ProposalStore} (h : Tallied store)
    (payload : NewProposalRequest) (now : Timestamp) {uuid : Uuid}
    (hfresh : proposalId uuid ∉ store.ids) :
    Tallied (createProposalHandler payload now uuid store).2 where
  ids_nodup := by
    rw [ids_create, ← List.concat_eq_append]
    exact List.Nodup.concat hfresh h.ids_nodup
  counts proposal hproposal := by
    rcases List.mem_append.mp hproposal with hold | hnew
    · exact h.counts proposal hold
    · rw [List.mem_singleton.mp hnew]
      have hnone : ∀ vote ∈ store.votes, vote.proposalId ≠ proposalId uuid := by
        intro vote hvote heq
        apply hfresh
        rw [← heq]
        exact h.refers vote hvote
      have hzero := tally_eq_zero hnone
      simp only [VoteCounts.ofVotes, createProposalHandler, newProposal, hzero]
      rfl
  voters_nodup := h.voters_nodup
  refers vote hvote := by
    rw [ids_create]
    exact List.mem_append_left _ (h.refers vote hvote)

theorem ids_close (store : ProposalStore) (id : String) :
    ProposalStore.ids { store with
      proposals := updateProposal id ProposalDetail.close store.proposals } = store.ids :=
  map_updateProposal ProposalDetail.close (·.summary.id) (fun _ => rfl) id store.proposals

theorem tallied_close {store : ProposalStore} (h : Tallied store) (id : String) :
    Tallied { store with
      proposals := updateProposal id ProposalDetail.close store.proposals } where
  ids_nodup := by
    rw [ids_close]
    exact h.ids_nodup
  counts proposal hproposal := by
    rw [updateProposal_eq_map h.ids_nodup] at hproposal
    obtain ⟨old, hold, rfl⟩ := List.mem_map.mp hproposal
    have hcounts := h.counts old hold
    split
    · exact hcounts
    · exact hcounts
  voters_nodup := h.voters_nodup
  refers vote hvote := by
    rw [ids_close]
    exact h.refers vote hvote

section CastOk

variable {payload : NewVoteRequest} {checkedAt stampedAt : Timestamp}
  {store store' : ProposalStore} {vote : Vote} {proposal : ProposalDetail}
  (hcast : CastOk payload checkedAt stampedAt store store' vote proposal)

include hcast

theorem CastOk.ids : store'.ids = store.ids := by
  rw [ProposalStore.ids, hcast.proposals]
  exact map_updateProposal (·.count vote.voteType) (·.summary.id) (fun _ => rfl) _ _

theorem CastOk.tallied (h : Tallied store) : Tallied store' where
  ids_nodup := by
    rw [hcast.ids]
    exact h.ids_nodup
  counts other hother := by
    rw [hcast.proposals, updateProposal_eq_map h.ids_nodup] at hother
    obtain ⟨old, hold, rfl⟩ := List.mem_map.mp hother
    have hcounts := h.counts old hold
    rw [hcast.votes]
    by_cases hid : old.summary.id = vote.proposalId
    · rw [if_pos hid]
      have hcount : (old.count vote.voteType).summary.voteCounts =
          old.summary.voteCounts.add vote.voteType := rfl
      have hsame : (old.count vote.voteType).summary.id = vote.proposalId := hid
      rw [hcount, hsame, ofVotes_append_self, hcounts, hid]
    · rw [if_neg hid, hcounts, ofVotes_append_of_ne _ (Ne.symm hid)]
  voters_nodup := by
    rw [hcast.votes, List.map_append, List.map_singleton, ← List.concat_eq_append]
    refine List.Nodup.concat ?_ h.voters_nodup
    intro hmem
    obtain ⟨old, hold, heq⟩ := List.mem_map.mp hmem
    obtain ⟨hid, hvoter⟩ := Prod.mk.inj heq
    exact hcast.new_voter old hold hid hvoter
  refers other hother := by
    rw [hcast.ids]
    rw [hcast.votes] at hother
    rcases List.mem_append.mp hother with hold | hnew
    · exact h.refers other hold
    · rw [List.mem_singleton.mp hnew, ← hcast.id_eq]
      exact List.mem_map_of_mem hcast.mem

end CastOk

/-- The id a request draws is new. -/
def FreshId (store : ProposalStore) : GovernanceOp → Prop
  | .create _ _ uuid => proposalId uuid ∉ store.ids
  | .cast _ _ _ => True

theorem apply_cast_cases (lib : DidLibrary) (payload : NewVoteRequest)
    (checkedAt stampedAt : Timestamp) (store : ProposalStore) :
    store.apply lib (.cast payload checkedAt stampedAt) = store ∨
      store.apply lib (.cast payload checkedAt stampedAt) =
        { store with
          proposals := updateProposal payload.proposalId ProposalDetail.close store.proposals } ∨
      ∃ vote proposal, CastOk payload checkedAt stampedAt store
        (store.apply lib (.cast payload checkedAt stampedAt)) vote proposal := by
  rw [ProposalStore.apply]
  rcases castVoteHandler_cases lib payload checkedAt stampedAt store with
    ⟨err, hcase⟩ | ⟨err, hcase⟩ | ⟨vote, store', proposal, hcase, hcast⟩
  · rw [hcase]
    exact Or.inl rfl
  · rw [hcase]
    exact Or.inr (Or.inl rfl)
  · rw [hcase]
    exact Or.inr (Or.inr ⟨vote, proposal, hcast⟩)

theorem tallied_apply (lib : DidLibrary) {store : ProposalStore} {op : GovernanceOp}
    (h : Tallied store) (hfresh : FreshId store op) : Tallied (store.apply lib op) := by
  cases op with
  | create payload now uuid => exact tallied_create h payload now hfresh
  | cast payload checkedAt stampedAt =>
      rcases apply_cast_cases lib payload checkedAt stampedAt store with
        hsame | hclosed | ⟨vote, proposal, hcast⟩
      · rw [hsame]
        exact h
      · rw [hclosed]
        exact tallied_close h _
      · exact hcast.tallied h

/-- The ids after a request: one more for a new proposal. -/
theorem ids_apply (lib : DidLibrary) (store : ProposalStore) (op : GovernanceOp) :
    (store.apply lib op).ids =
      match op with
      | .create _ _ uuid => store.ids ++ [proposalId uuid]
      | .cast _ _ _ => store.ids := by
  cases op with
  | create payload now uuid => exact ids_create payload now uuid store
  | cast payload checkedAt stampedAt =>
      rcases apply_cast_cases lib payload checkedAt stampedAt store with
        hsame | hclosed | ⟨vote, proposal, hcast⟩
      · rw [hsame]
      · rw [hclosed]
        exact ids_close store _
      · exact hcast.ids

def createdUuids (ops : List GovernanceOp) : List Uuid :=
  ops.filterMap fun
    | .create _ _ uuid => some uuid
    | .cast _ _ _ => none

theorem proposalId_injective {uuid uuid' : Uuid} (h : proposalId uuid = proposalId uuid') :
    uuid = uuid' := by
  have hlist : "proposal_".toList ++ uuid.toList = "proposal_".toList ++ uuid'.toList := by
    rw [← String.toList_append, ← String.toList_append]
    exact congrArg String.toList h
  exact String.toList_inj.mp (List.append_cancel_left hlist)

theorem along_freshId (lib : DidLibrary) {store : ProposalStore} {ops : List GovernanceOp}
    (hnodup : (createdUuids ops).Nodup)
    (hnew : ∀ uuid ∈ createdUuids ops, proposalId uuid ∉ store.ids) :
    Run.Along (ProposalStore.apply lib) FreshId store ops := by
  induction ops generalizing store with
  | nil => trivial
  | cons op ops ih =>
      cases op with
      | create payload now uuid =>
          have huuids : createdUuids (.create payload now uuid :: ops) =
              uuid :: createdUuids ops := rfl
          rw [huuids, List.nodup_cons] at hnodup
          rw [huuids, List.forall_mem_cons] at hnew
          refine ⟨hnew.1, ih hnodup.2 ?_⟩
          intro other hother hmem
          rw [ids_apply] at hmem
          rcases List.mem_append.mp hmem with hold | hlast
          · exact hnew.2 other hother hold
          · have heq := proposalId_injective (List.mem_singleton.mp hlast)
            rw [heq] at hother
            exact hnodup.1 hother
      | cast payload checkedAt stampedAt =>
          refine ⟨trivial, ih hnodup ?_⟩
          intro other hother
          rw [ids_apply]
          exact hnew other hother

theorem tallied_run (lib : DidLibrary) {ops : List GovernanceOp}
    (h : (createdUuids ops).Nodup) :
    Tallied (Run.run (ProposalStore.apply lib) ProposalStore.new ops) :=
  Run.invariant_of_along (I := Tallied) (fun _ _ h hfresh => tallied_apply lib h hfresh)
    tallied_new (along_freshId lib h fun _ _ => List.not_mem_nil)

/-- Every proposal lives on with its id and its deadline, and closed if it was
closed. -/
def Keeps (store store' : ProposalStore) : Prop :=
  ∀ proposal ∈ store.proposals, ∃ later ∈ store'.proposals,
    later.summary.id = proposal.summary.id ∧
      later.summary.votingDeadline = proposal.summary.votingDeadline ∧
      (proposal.summary.status = .closed → later.summary.status = .closed)

instance : IsPreorder ProposalStore Keeps where
  refl _ proposal h := ⟨proposal, h, rfl, rfl, id⟩
  trans _ _ _ h h' proposal hproposal := by
    obtain ⟨later, hlater, hid, hdeadline, hclosed⟩ := h proposal hproposal
    obtain ⟨last, hlast, hid', hdeadline', hclosed'⟩ := h' later hlater
    exact ⟨last, hlast, hid'.trans hid, hdeadline'.trans hdeadline, hclosed' ∘ hclosed⟩

theorem keeps_apply (lib : DidLibrary) (store : ProposalStore) (op : GovernanceOp) :
    Keeps store (store.apply lib op) := by
  intro proposal hproposal
  cases op with
  | create payload now uuid =>
      exact ⟨proposal, List.mem_append_left _ hproposal, rfl, rfl, id⟩
  | cast payload checkedAt stampedAt =>
      rcases apply_cast_cases lib payload checkedAt stampedAt store with
        hstays | hcloses | ⟨vote, voted, hcast⟩
      · rw [hstays]
        exact ⟨proposal, hproposal, rfl, rfl, id⟩
      · rw [hcloses]
        rcases exists_mem_updateProposal hproposal payload.proposalId ProposalDetail.close with
          hsame | hchanged
        · exact ⟨proposal, hsame, rfl, rfl, id⟩
        · exact ⟨proposal.close, hchanged, rfl, rfl, fun _ => rfl⟩
      · rw [hcast.proposals]
        rcases exists_mem_updateProposal hproposal vote.proposalId (·.count vote.voteType) with
          hsame | hchanged
        · exact ⟨proposal, hsame, rfl, rfl, id⟩
        · exact ⟨proposal.count vote.voteType, hchanged, rfl, rfl, id⟩

/-- The vote was cast by the request while its proposal was open, not after the
given deadline, which was the proposal's. -/
def CastInTime (lib : DidLibrary) (store : ProposalStore) (op : GovernanceOp) (vote : Vote)
    (deadline : Timestamp) : Prop :=
  ∃ payload checkedAt stampedAt, op = .cast payload checkedAt stampedAt ∧
    (castVoteHandler lib payload checkedAt stampedAt store).1 = .ok vote ∧
    (∃ proposal ∈ store.proposals, proposal.summary.id = vote.proposalId ∧
      proposal.summary.status = .open ∧ proposal.summary.votingDeadline = deadline) ∧
    checkedAt ≤ deadline

theorem castInTime_of_new {lib : DidLibrary} {store : ProposalStore} {op : GovernanceOp}
    {vote : Vote} (hold : vote ∉ store.votes) (hnew : vote ∈ (store.apply lib op).votes) :
    ∃ proposal ∈ store.proposals, proposal.summary.id = vote.proposalId ∧
      CastInTime lib store op vote proposal.summary.votingDeadline := by
  cases op with
  | create payload now uuid => exact absurd hnew hold
  | cast payload checkedAt stampedAt =>
      rw [ProposalStore.apply] at hnew
      rcases castVoteHandler_cases lib payload checkedAt stampedAt store with
        ⟨err, hcase⟩ | ⟨err, hcase⟩ | ⟨other, store', proposal, hcase, hcast⟩
      · rw [hcase] at hnew
        exact absurd hnew hold
      · rw [hcase] at hnew
        exact absurd hnew hold
      · rw [hcase, hcast.votes] at hnew
        have hvote : vote = other := by
          rcases List.mem_append.mp hnew with h | h
          · exact absurd h hold
          · exact List.mem_singleton.mp h
        rw [hvote]
        refine ⟨proposal, hcast.mem, hcast.id_eq, payload, checkedAt, stampedAt, rfl, ?_,
          ⟨proposal, hcast.mem, hcast.id_eq, hcast.isOpen, rfl⟩, hcast.inTime⟩
        rw [hcase]

/-- A refused vote changes no counter and adds no vote. -/
theorem unchanged_of_refused {lib : DidLibrary} {payload : NewVoteRequest}
    {checkedAt stampedAt : Timestamp} {store : ProposalStore} {err : ApiError}
    (h : (castVoteHandler lib payload checkedAt stampedAt store).1 = .error err) :
    (castVoteHandler lib payload checkedAt stampedAt store).2.votes = store.votes ∧
      (castVoteHandler lib payload checkedAt stampedAt store).2.proposals.map
          (fun proposal => (proposal.summary.id, proposal.summary.voteCounts)) =
        store.proposals.map
          (fun proposal => (proposal.summary.id, proposal.summary.voteCounts)) := by
  rcases castVoteHandler_cases lib payload checkedAt stampedAt store with
    ⟨err, hcase⟩ | ⟨err, hcase⟩ | ⟨vote, store', proposal, hcase, hcast⟩
  · rw [hcase]
    exact ⟨rfl, rfl⟩
  · rw [hcase]
    exact ⟨rfl, map_updateProposal ProposalDetail.close
      (fun proposal => (proposal.summary.id, proposal.summary.voteCounts)) (fun _ => rfl) _ _⟩
  · rw [hcase] at h
    cases h

def ProposalStore.after (lib : DidLibrary) (ops : List GovernanceOp) : ProposalStore :=
  Run.run (ProposalStore.apply lib) ProposalStore.new ops

theorem after_append (lib : DidLibrary) (before later : List GovernanceOp) :
    ProposalStore.after lib (before ++ later) =
      Run.run (ProposalStore.apply lib) (ProposalStore.after lib before) later :=
  Run.run_append _ _ _ _

theorem keeps_after (lib : DidLibrary) (before later : List GovernanceOp) :
    Keeps (ProposalStore.after lib before) (ProposalStore.after lib (before ++ later)) := by
  rw [after_append]
  exact Run.rel_run Keeps (keeps_apply lib) _ later

theorem toNat_ofNat_tally {votes : List Vote} (h : votes.length < 2 ^ 32) (id : String)
    (voteType : VoteType) :
    (UInt32.ofNat (tally votes id voteType)).toNat = tally votes id voteType := by
  apply UInt32.toNat_ofNat_of_lt'
  exact lt_of_le_of_lt List.countP_le_length h

theorem length_votes_apply_le (lib : DidLibrary) (store : ProposalStore) (op : GovernanceOp) :
    (store.apply lib op).votes.length ≤ store.votes.length + 1 := by
  cases op with
  | create payload now uuid => exact Nat.le_succ _
  | cast payload checkedAt stampedAt =>
      rcases apply_cast_cases lib payload checkedAt stampedAt store with
        hsame | hclosed | ⟨vote, proposal, hcast⟩
      · rw [hsame]
        exact Nat.le_succ _
      · rw [hclosed]
        exact Nat.le_succ _
      · rw [hcast.votes, List.length_append, List.length_singleton]

theorem length_votes_run_le (lib : DidLibrary) (store : ProposalStore)
    (ops : List GovernanceOp) :
    (Run.run (ProposalStore.apply lib) store ops).votes.length ≤
      store.votes.length + ops.length := by
  induction ops generalizing store with
  | nil => exact le_refl _
  | cons op ops ih =>
      have hfirst := length_votes_apply_le lib store op
      have hrest := ih (store.apply lib op)
      rw [Run.run_cons, List.length_cons]
      omega

/-- What the two lists say about each other after the requests, at whatever times
they were made. -/
structure VotesTallied (lib : DidLibrary) (ops : List GovernanceOp) : Prop where
  counts : ∀ proposal ∈ (ProposalStore.after lib ops).proposals,
    let votes := (ProposalStore.after lib ops).votes
    proposal.summary.voteCounts.approve.toNat = tally votes proposal.summary.id .approve ∧
      proposal.summary.voteCounts.reject.toNat = tally votes proposal.summary.id .reject ∧
      proposal.summary.voteCounts.abstain.toNat = tally votes proposal.summary.id .abstain
  once : ((ProposalStore.after lib ops).votes.map fun vote =>
    (vote.proposalId, vote.voterDid)).Nodup
  inTime : ∀ vote ∈ (ProposalStore.after lib ops).votes,
    ∃ proposal ∈ (ProposalStore.after lib ops).proposals,
      proposal.summary.id = vote.proposalId ∧
        ∃ before op later, ops = before ++ op :: later ∧
          CastInTime lib (ProposalStore.after lib before) op vote
            proposal.summary.votingDeadline
  closed : ∀ before later, ops = before ++ later →
    ∀ proposal ∈ (ProposalStore.after lib before).proposals,
      proposal.summary.status = .closed →
        ∀ last ∈ (ProposalStore.after lib ops).proposals,
          last.summary.id = proposal.summary.id → last.summary.status = .closed
  refused : ∀ payload checkedAt stampedAt err,
    let store := ProposalStore.after lib ops
    let cast := castVoteHandler lib payload checkedAt stampedAt store
    cast.1 = .error err → cast.2.votes = store.votes ∧
      cast.2.proposals.map (fun proposal => (proposal.summary.id, proposal.summary.voteCounts)) =
        store.proposals.map (fun proposal => (proposal.summary.id, proposal.summary.voteCounts))

theorem exists_castInTime (lib : DidLibrary) {ops : List GovernanceOp} {vote : Vote}
    (h : vote ∈ (ProposalStore.after lib ops).votes) :
    ∃ proposal ∈ (ProposalStore.after lib ops).proposals,
      proposal.summary.id = vote.proposalId ∧
        ∃ before op later, ops = before ++ op :: later ∧
          CastInTime lib (ProposalStore.after lib before) op vote
            proposal.summary.votingDeadline := by
  obtain ⟨before, op, later, hops, hold, hnew⟩ :=
    Run.exists_step_of_run (Q := fun store : ProposalStore => vote ∈ store.votes)
      List.not_mem_nil h
  obtain ⟨proposal, hproposal, hid, hcast⟩ := castInTime_of_new hold hnew
  have hkeeps := keeps_after lib before (op :: later)
  rw [← hops] at hkeeps
  obtain ⟨last, hlast, hlastId, hdeadline, -⟩ := hkeeps proposal hproposal
  refine ⟨last, hlast, hlastId.trans hid, before, op, later, hops, ?_⟩
  rw [hdeadline]
  exact hcast

theorem closed_after {lib : DidLibrary} {before later : List GovernanceOp}
    (hids : (ProposalStore.after lib (before ++ later)).ids.Nodup)
    {proposal last : ProposalDetail}
    (hproposal : proposal ∈ (ProposalStore.after lib before).proposals)
    (hclosed : proposal.summary.status = .closed)
    (hlast : last ∈ (ProposalStore.after lib (before ++ later)).proposals)
    (hid : last.summary.id = proposal.summary.id) : last.summary.status = .closed := by
  obtain ⟨other, hother, hotherId, -, hstays⟩ := keeps_after lib before later proposal hproposal
  have heq : last = other := List.inj_on_of_nodup_map hids hlast hother (hid.trans hotherId.symm)
  rw [heq]
  exact hstays hclosed

/-- With distinct draws of ids, and fewer votes than a counter counts, every run
keeps the counters and the votes in agreement. -/
theorem votesTallied_run (lib : DidLibrary) (ops : List GovernanceOp)
    (hids : (createdUuids ops).Nodup)
    (hfew : (ProposalStore.after lib ops).votes.length < 2 ^ 32) : VotesTallied lib ops where
  counts proposal hproposal := by
    rw [(tallied_run lib hids).counts proposal hproposal]
    exact ⟨toNat_ofNat_tally hfew _ _, toNat_ofNat_tally hfew _ _, toNat_ofNat_tally hfew _ _⟩
  once := (tallied_run lib hids).voters_nodup
  inTime _ hvote := exists_castInTime lib hvote
  closed before later hops proposal hproposal hclosed last hlast hid := by
    have hnodup := (tallied_run lib hids).ids_nodup
    subst hops
    exact closed_after hnodup hproposal hclosed hlast hid
  refused _ _ _ _ h := unchanged_of_refused h

/-- Two voters for one proposal, the first of whom votes twice, and a vote that
comes too late for another. -/
def twoVoters : List GovernanceOp :=
  [.create ⟨"Budget", "", "coop", none, some (seconds 100)⟩ (seconds 0) "1",
    .create ⟨"Charter", "", "coop", none, some (seconds 15)⟩ (seconds 5) "2",
    .cast ⟨"proposal_1", basePointDid, .approve, none⟩ (seconds 10) (seconds 10),
    .cast ⟨"proposal_1", basePointDid, .reject, none⟩ (seconds 20) (seconds 20),
    .cast ⟨"proposal_2", basePointDid, .reject, none⟩ (seconds 30) (seconds 30),
    .cast ⟨"proposal_1", neutralDid, .abstain, none⟩ (seconds 100) (seconds 101)]

theorem votesTallied_twoVoters : VotesTallied base16Library twoVoters := by
  refine votesTallied_run base16Library twoVoters (by decide) ?_
  refine lt_of_le_of_lt (length_votes_run_le base16Library ProposalStore.new twoVoters) ?_
  decide

end AgoraNet

end Icn
