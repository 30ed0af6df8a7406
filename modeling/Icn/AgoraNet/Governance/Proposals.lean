import Icn.AgoraNet.Models

/-!
# Proposals and votes

Proposals and votes live in two lists. Casting a vote changes both: it counts in
the proposal and appends to the votes. Between the two there are four refusals,
one of which closes the proposal. The clock is read twice, for the deadline and
for the stored vote. A counter is a 32-bit word; it wraps here, and a checked
build would stop instead.
-/

namespace Icn

namespace AgoraNet

open Identity

inductive ProposalStatus where
  | draft
  | open
  | closed
  | accepted
  | rejected
deriving DecidableEq, Repr

inductive VoteType where
  | approve
  | reject
  | abstain
deriving DecidableEq, Repr

structure VoteCounts where
  approve : UInt32
  reject : UInt32
  abstain : UInt32
deriving DecidableEq, Repr

structure ProposalSummary where
  id : String
  title : String
  scope : String
  status : ProposalStatus
  voteCounts : VoteCounts
  votingDeadline : Timestamp
deriving DecidableEq, Repr

structure ProposalDetail where
  summary : ProposalSummary
  fullText : String
  linkedThreadId : Option String
deriving DecidableEq, Repr

structure Vote where
  proposalId : String
  voterDid : String
  voteType : VoteType
  timestamp : Timestamp
  justification : Option String
deriving DecidableEq, Repr

structure NewProposalRequest where
  title : String
  fullText : String
  scope : String
  linkedThreadId : Option String
  votingDeadline : Option Timestamp
deriving DecidableEq, Repr

structure NewVoteRequest where
  proposalId : String
  voterDid : String
  voteType : VoteType
  justification : Option String
deriving DecidableEq, Repr

/-- The part of the store that holds proposals and votes. -/
structure ProposalStore where
  proposals : List ProposalDetail
  votes : List Vote
deriving DecidableEq, Repr

def ProposalStore.new : ProposalStore where
  proposals := []
  votes := []

def proposalId (uuid : Uuid) : String := s!"proposal_{uuid}"

/-- A new proposal is open, without votes, for a week unless it says otherwise. -/
def newProposal (payload : NewProposalRequest) (now : Timestamp) (uuid : Uuid) :
    ProposalDetail where
  summary :=
    { id := proposalId uuid
      title := payload.title
      scope := payload.scope
      status := .open
      voteCounts := { approve := 0, reject := 0, abstain := 0 }
      votingDeadline := payload.votingDeadline.getD (now + seconds (7 * 86400)) }
  fullText := payload.fullText
  linkedThreadId := payload.linkedThreadId

def createProposalHandler (payload : NewProposalRequest) (now : Timestamp) (uuid : Uuid)
    (store : ProposalStore) : ProposalSummary × ProposalStore :=
  let proposal := newProposal payload now uuid
  (proposal.summary, { store with proposals := store.proposals ++ [proposal] })

def VoteCounts.add (counts : VoteCounts) : VoteType → VoteCounts
  | .approve => { counts with approve := counts.approve + 1 }
  | .reject => { counts with reject := counts.reject + 1 }
  | .abstain => { counts with abstain := counts.abstain + 1 }

def ProposalDetail.count (proposal : ProposalDetail) (voteType : VoteType) : ProposalDetail :=
  { proposal with
    summary := { proposal.summary with
      voteCounts := proposal.summary.voteCounts.add voteType } }

def ProposalDetail.close (proposal : ProposalDetail) : ProposalDetail :=
  { proposal with summary := { proposal.summary with status := .closed } }

def updateProposal (id : String) (change : ProposalDetail → ProposalDetail) :
    List ProposalDetail → List ProposalDetail
  | [] => []
  | proposal :: proposals =>
      if proposal.summary.id = id then change proposal :: proposals
      else proposal :: updateProposal id change proposals

def castVoteHandler (lib : DidLibrary) (payload : NewVoteRequest)
    (checkedAt stampedAt : Timestamp) (store : ProposalStore) :
    Except ApiError Vote × ProposalStore :=
  match Did.fromStr lib payload.voterDid with
  | .error err => (.error (.ofDidError err), store)
  | .ok did =>
      let voter := did.asStr
      let id := payload.proposalId
      if store.votes.any fun vote => vote.proposalId == id && vote.voterDid == voter then
        (.error (.badRequest s!"Voter {voter} has already voted on proposal {id}"), store)
      else
        match store.proposals.find? fun proposal => proposal.summary.id = id with
        | none => (.error (.notFound s!"Proposal with id {id} not found"), store)
        | some proposal =>
            if proposal.summary.status ≠ .open then
              (.error (.badRequest "Proposal is not open for voting"), store)
            else if proposal.summary.votingDeadline < checkedAt then
              (.error (.badRequest "Voting deadline has passed for this proposal"),
                { store with
                  proposals := updateProposal id ProposalDetail.close store.proposals })
            else
              let vote : Vote :=
                { proposalId := id
                  voterDid := voter
                  voteType := payload.voteType
                  timestamp := stampedAt
                  justification := payload.justification }
              (.ok vote,
                { proposals := updateProposal id (·.count payload.voteType) store.proposals
                  votes := store.votes ++ [vote] })

/-- A request to create a proposal or to cast a vote. -/
inductive GovernanceOp where
  | create (payload : NewProposalRequest) (now : Timestamp) (uuid : Uuid)
  | cast (payload : NewVoteRequest) (checkedAt stampedAt : Timestamp)
deriving DecidableEq, Repr

def ProposalStore.apply (lib : DidLibrary) (store : ProposalStore) : GovernanceOp → ProposalStore
  | .create payload now uuid => (createProposalHandler payload now uuid store).2
  | .cast payload checkedAt stampedAt =>
      (castVoteHandler lib payload checkedAt stampedAt store).2

/-- A vote that is stored: what the checks found, and what was done. -/
structure CastOk (payload : NewVoteRequest) (checkedAt stampedAt : Timestamp)
    (store store' : ProposalStore) (vote : Vote) (proposal : ProposalDetail) : Prop where
  vote_eq : vote = ⟨payload.proposalId, payload.voterDid, payload.voteType, stampedAt,
    payload.justification⟩
  new_voter : ∀ other ∈ store.votes, other.proposalId = vote.proposalId →
    other.voterDid ≠ vote.voterDid
  mem : proposal ∈ store.proposals
  id_eq : proposal.summary.id = vote.proposalId
  isOpen : proposal.summary.status = .open
  inTime : checkedAt ≤ proposal.summary.votingDeadline
  proposals : store'.proposals =
    updateProposal vote.proposalId (·.count vote.voteType) store.proposals
  votes : store'.votes = store.votes ++ [vote]

/-- A cast vote is refused without a change, refused while the proposal closes, or
stored. -/
theorem castVoteHandler_cases (lib : DidLibrary) (payload : NewVoteRequest)
    (checkedAt stampedAt : Timestamp) (store : ProposalStore) :
    (∃ err, castVoteHandler lib payload checkedAt stampedAt store = (.error err, store)) ∨
      (∃ err, castVoteHandler lib payload checkedAt stampedAt store =
        (.error err, { store with
          proposals := updateProposal payload.proposalId ProposalDetail.close
            store.proposals })) ∨
      ∃ vote store' proposal,
        castVoteHandler lib payload checkedAt stampedAt store = (.ok vote, store') ∧
          CastOk payload checkedAt stampedAt store store' vote proposal := by
  unfold castVoteHandler
  cases hdid : Did.fromStr lib payload.voterDid with
  | error err => exact Or.inl ⟨_, rfl⟩
  | ok did =>
      have hvoter : did.asStr = payload.voterDid := Did.value_of_fromStr hdid
      simp only [hvoter]
      split
      · exact Or.inl ⟨_, rfl⟩
      next hnew =>
      split
      · exact Or.inl ⟨_, rfl⟩
      next proposal hfind =>
      split
      · exact Or.inl ⟨_, rfl⟩
      next hopen =>
      split
      · exact Or.inr (Or.inl ⟨_, rfl⟩)
      next hdeadline =>
      refine Or.inr (Or.inr ⟨_, _, proposal, rfl, rfl, ?_, List.mem_of_find?_eq_some hfind, ?_,
        not_not.mp hopen, not_lt.mp hdeadline, rfl, rfl⟩)
      · intro other hother hid heq
        apply hnew
        rw [List.any_eq_true]
        exact ⟨other, hother, by simp [hid, heq]⟩
      · simpa using List.find?_some hfind

end AgoraNet

end Icn
