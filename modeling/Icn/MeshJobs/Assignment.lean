import Icn.MeshJobs.Selectors
import Mathlib.Algebra.Order.Ring.Unbundled.Rat

/-!
# The assignment of a job to its best bid

The handler lets one selector choose among the bids for a job. Which selector it is depends
on the strategy of the job's execution policy, and only the hybrid one looks at the minimum
reputation that the policy asks for. So the bid that is chosen honours the policy exactly
when the strategy alone ends at a bidder with that reputation (`choosesByPolicy_iff`).
-/

open Foundation

namespace Icn

namespace MeshJobs

open Identity

variable {Cid F : Type} [LinearOrder F] [Add F] [Sub F] [Div F] [NatCast F] [OfScientific F]
  [ToString F]

def JobRequest.policy (request : JobRequest (MarketTypes Cid F)) : ExecutionPolicy F :=
  request.executionPolicy.getD .default

def BidEvaluatorConfig.ofService : BidEvaluatorConfig F where
  weightPrice := 0.4
  weightResources := 0.2
  weightReputation := 0.3
  weightTimeliness := 0.1

def selectByStrategy (client : ReputationClient F) (request : JobRequest (MarketTypes Cid F))
    (bids : List (Bid (MarketTypes Cid F))) : Except SelectionError (Option (Selection Cid F)) :=
  match request.policy.selectionStrategy with
  | .lowestPrice => .ok (LowestPriceExecutorSelector.select bids)
  | .reputation => ReputationExecutorSelector.select ⟨.ofService, client⟩ request bids
  | .hybrid => HybridExecutorSelector.select ⟨request.policy, client⟩ request bids

def selectWinningBid (client : ReputationClient F) (jobIdStr : String)
    (request : JobRequest (MarketTypes Cid F)) (bids : List (Bid (MarketTypes Cid F))) :
    Except AppError (Selection Cid F) :=
  match selectByStrategy client request bids with
  | .error e => .error (.selectionFailure e.toString)
  | .ok none => .error (.notFound s!"No acceptable bid found for job {jobIdStr}")
  | .ok (some winner) => .ok winner

structure StoreAnswers (T : JobTypes) where
  getJob : T.Cid → Except AppError (Option (JobRequest T × StoredStatus))
  listBids : T.Cid → Except AppError (List (Bid T))
  assignJob : T.Cid → Did → Except AppError Unit

structure AssignJobResponse (F : Type) where
  message : String
  jobId : String
  assignedBidderDid : String
  winningBidId : UInt64
  winningScore : F
  reason : String

def chooseBid (statusText : StoredStatus → String) (client : ReputationClient F)
    (store : StoreAnswers (MarketTypes Cid F)) (jobIdStr : String) (jobId : Cid) :
    Except AppError (Selection Cid F) := do
  match ← store.getJob jobId with
  | none => throw (.notFound s!"Job with ID {jobIdStr} not found")
  | some (jobRequest, currentStatus) =>
      if currentStatus ≠ .of .bidding then
        throw (.badRequest (s!"Job {jobIdStr} is not in Bidding state, currently: " ++
          statusText currentStatus))
      let bids ← store.listBids jobId
      if bids.isEmpty then
        throw (.notFound s!"No bids found for job {jobIdStr}")
      selectWinningBid client jobIdStr jobRequest bids

def assignBestBidHandler (lib : JobLibrary (MarketTypes Cid F)) (client : ReputationClient F)
    (store : StoreAnswers (MarketTypes Cid F)) (jobIdStr : String) :
    Except AppError (AssignJobResponse F) := do
  let jobIdCid ← (lib.parseCid jobIdStr).mapError fun e =>
    .invalidCid s!"Invalid job ID format for assign_best_bid: {jobIdStr} - {e}"
  let (winningBid, winningScore, selectionReason) ←
    chooseBid lib.statusText client store jobIdStr jobIdCid
  match winningBid.id with
  | none => throw (.internal "Winning bid has no ID")
  | some winningBidId =>
      let _ ← store.assignJob jobIdCid winningBid.bidder
      return {
        message := "Job assigned successfully. P2P notification to executor initiated."
        jobId := jobIdStr
        assignedBidderDid := winningBid.bidder.asStr
        winningBidId := winningBidId
        winningScore := winningScore
        reason := selectionReason }

variable (client : ReputationClient F)

/-- The bid is one of the job's and from a bidder with the reputation that the policy asks
for. Under the strategy of the lowest price it is the first of the cheapest such bids. -/
structure HonoursPolicy (request : JobRequest (MarketTypes Cid F))
    (bids : List (Bid (MarketTypes Cid F))) (bid : Bid (MarketTypes Cid F)) : Prop where
  mem : bid ∈ bids
  admitted : request.policy.Admits client bid
  cheapest : request.policy.selectionStrategy = .lowestPrice →
    Cheapest (request.policy.Admits client) bids bid

/-- The policy admits the bid that its strategy ends at. The hybrid strategy looks at
nothing else. -/
def StrategySuits (request : JobRequest (MarketTypes Cid F))
    (bids : List (Bid (MarketTypes Cid F))) : Prop :=
  match request.policy.selectionStrategy with
  | .lowestPrice => ∀ bid, Cheapest (fun _ => True) bids bid → request.policy.Admits client bid
  | .reputation =>
      ∀ bid, ReputationExecutorSelector.BestScored ⟨.ofService, client⟩ request bids bid →
        request.policy.Admits client bid
  | .hybrid => True

variable {client} in
theorem selectByStrategy_honoursPolicy_iff {request : JobRequest (MarketTypes Cid F)}
    {bids : List (Bid (MarketTypes Cid F))} :
    (∀ winner, selectByStrategy client request bids = .ok (some winner) →
        HonoursPolicy client request bids winner.1) ↔ StrategySuits client request bids := by
  unfold StrategySuits selectByStrategy
  cases hstrategy : request.policy.selectionStrategy with
  | lowestPrice =>
      simp only [Except.ok.injEq]
      constructor
      · intro h bid hcheapest
        obtain ⟨score, reason, hselect⟩ :=
          LowestPriceExecutorSelector.exists_select_iff (F := F).mpr hcheapest
        exact (h _ hselect).admitted
      · rintro h ⟨bid, score, reason⟩ hselect
        have hcheapest := LowestPriceExecutorSelector.exists_select_iff.mp ⟨score, reason, hselect⟩
        exact ⟨hcheapest.mem, h bid hcheapest, fun _ => hcheapest.of_all _⟩
  | reputation =>
      simp only
      constructor
      · intro h bid hbest
        obtain ⟨score, reason, hselect⟩ :=
          (ReputationExecutorSelector.exists_select_iff _ request).mpr hbest
        exact (h _ hselect).admitted
      · rintro h ⟨bid, score, reason⟩ hselect
        have hbest := (ReputationExecutorSelector.exists_select_iff _ request).mp
          ⟨score, reason, hselect⟩
        refine ⟨hbest.mem, h bid hbest, fun hlowest => ?_⟩
        rw [hstrategy] at hlowest
        cases hlowest
  | hybrid =>
      simp only [iff_true]
      intro winner hselect
      obtain ⟨hmem, hadmits⟩ := HybridExecutorSelector.mem_and_admits_of_select _ hselect
      refine ⟨hmem, hadmits, fun hlowest => ?_⟩
      rw [hstrategy] at hlowest
      cases hlowest

omit [Sub F] [ToString F] in
theorem strategySuits_of_minReputation_eq_none {request : JobRequest (MarketTypes Cid F)}
    (h : request.policy.minReputation = none) (bids : List (Bid (MarketTypes Cid F))) :
    StrategySuits client request bids := by
  have hadmits (bid : Bid (MarketTypes Cid F)) : request.policy.Admits client bid := by
    unfold ExecutionPolicy.Admits
    rw [h]
    simp
  unfold StrategySuits
  cases request.policy.selectionStrategy with
  | lowestPrice => exact fun bid _ => hadmits bid
  | reputation => exact fun bid _ => hadmits bid
  | hybrid => trivial

variable {client} {statusText : StoredStatus → String} {store : StoreAnswers (MarketTypes Cid F)}
  {jobIdStr : String} {jobId : Cid} {winner : Selection Cid F}

theorem selectWinningBid_eq_ok_iff {request : JobRequest (MarketTypes Cid F)}
    {bids : List (Bid (MarketTypes Cid F))} :
    selectWinningBid client jobIdStr request bids = .ok winner ↔
      selectByStrategy client request bids = .ok (some winner) := by
  unfold selectWinningBid
  split <;> simp_all

theorem selectByStrategy_nil (request : JobRequest (MarketTypes Cid F)) :
    selectByStrategy client request [] = .ok none := by
  unfold selectByStrategy
  cases request.policy.selectionStrategy <;> rfl

theorem chooseBid_eq_ok_iff :
    chooseBid statusText client store jobIdStr jobId = .ok winner ↔
      ∃ request bids, store.getJob jobId = .ok (some (request, .of .bidding)) ∧
        store.listBids jobId = .ok bids ∧
          selectByStrategy client request bids = .ok (some winner) := by
  rw [chooseBid, Fallible.bind_eq_ok_iff]
  constructor
  · rintro ⟨job, hjob, hchoose⟩
    cases job with
    | none => cases hchoose
    | some job =>
        obtain ⟨request, currentStatus⟩ := job
        simp only at hchoose
        split_ifs at hchoose with hstatus
        · cases hchoose
        · obtain ⟨bids, hbids, hchoose⟩ := Fallible.bind_eq_ok_iff.mp hchoose
          split_ifs at hchoose with hempty
          · cases hchoose
          · rw [not_not.mp hstatus] at hjob
            exact ⟨request, bids, hjob, hbids, selectWinningBid_eq_ok_iff.mp hchoose⟩
  · rintro ⟨request, bids, hjob, hbids, hselect⟩
    have hbids_ne : ¬ bids.isEmpty := by
      intro hempty
      rw [List.isEmpty_iff.mp hempty, selectByStrategy_nil] at hselect
      cases hselect
    refine ⟨_, hjob, ?_⟩
    simp only [ne_eq, not_true_eq_false, if_false]
    refine Fallible.bind_eq_ok_iff.mpr ⟨bids, hbids, ?_⟩
    rw [if_neg hbids_ne]
    exact selectWinningBid_eq_ok_iff.mpr hselect

theorem of_assignBestBidHandler {lib : JobLibrary (MarketTypes Cid F)}
    {response : AssignJobResponse F}
    (h : assignBestBidHandler lib client store jobIdStr = .ok response) :
    ∃ jobId winner, lib.parseCid jobIdStr = .ok jobId ∧
      chooseBid lib.statusText client store jobIdStr jobId = .ok winner ∧
        winner.1.id = some response.winningBidId ∧
          response.assignedBidderDid = winner.1.bidder.asStr := by
  obtain ⟨jobId, hparse, h⟩ := Fallible.bind_eq_ok_iff.mp h
  obtain ⟨⟨winningBid, _, _⟩, hchoose, h⟩ := Fallible.bind_eq_ok_iff.mp h
  refine ⟨jobId, _, Fallible.mapError_eq_ok_iff.mp hparse, hchoose, ?_⟩
  cases hid : winningBid.id with
  | none =>
      simp only [hid] at h
      cases h
  | some winningBidId =>
      simp only [hid] at h
      obtain ⟨_, _, h⟩ := Fallible.bind_eq_ok_iff.mp h
      cases h
      exact ⟨rfl, rfl⟩

variable (statusText client store jobIdStr jobId)

/-- The bid that the handler chooses honours the policy of the job exactly when the strategy
suits it. -/
theorem choosesByPolicy_iff :
    (∀ request status bids winner, store.getJob jobId = .ok (some (request, status)) →
        store.listBids jobId = .ok bids →
          chooseBid statusText client store jobIdStr jobId = .ok winner →
            HonoursPolicy client request bids winner.1) ↔
      ∀ request bids, store.getJob jobId = .ok (some (request, .of .bidding)) →
        store.listBids jobId = .ok bids → StrategySuits client request bids := by
  constructor
  · intro h request bids hjob hbids
    refine selectByStrategy_honoursPolicy_iff.mp fun winner hselect => ?_
    exact h request (.of .bidding) bids winner hjob hbids
      (chooseBid_eq_ok_iff.mpr ⟨request, bids, hjob, hbids, hselect⟩)
  · intro h request status bids winner hjob hbids hchoose
    obtain ⟨request', bids', hjob', hbids', hselect⟩ := chooseBid_eq_ok_iff.mp hchoose
    rw [hjob'] at hjob
    rw [hbids'] at hbids
    cases hjob
    cases hbids
    exact selectByStrategy_honoursPolicy_iff.mpr (h _ _ hjob' hbids') winner hselect

def lowestPriceRequest : JobRequest (MarketTypes String ℚ) where
  jobId := "job"
  params := ⟨none, ⟨1, 1024, 10⟩⟩
  originator := ⟨"did:key:originator"⟩
  executionPolicy := some ⟨0.7, 0.3, none, some 50, .lowestPrice⟩

def unknownBid : Bid (MarketTypes String ℚ) where
  id := some 1
  jobId := "job"
  bidder := ⟨"did:key:unknown"⟩
  priceAttoIcn := 5
  data := ⟨1, 1024, 10240⟩
  reputationScore := none

def reputableBid : Bid (MarketTypes String ℚ) where
  id := some 2
  jobId := "job"
  bidder := ⟨"did:key:reputable"⟩
  priceAttoIcn := 10
  data := ⟨1, 1024, 10240⟩
  reputationScore := none

def sampleProfiles (did : Did) :
    Except ReputationClientError (Option (ReputationProfile ℚ)) :=
  if did.asStr = "did:key:reputable" then .ok (some ⟨10, 10, 90, none⟩) else .ok none

def sampleAnswers : StoreAnswers (MarketTypes String ℚ) where
  getJob _ := .ok (some (lowestPriceRequest, .of .bidding))
  listBids _ := .ok [unknownBid, reputableBid]
  assignJob _ _ := .ok ()

/-- The unknown bidder gets the job that asks for a score. -/
theorem unknownBid_not_honoursPolicy :
    ¬ ∀ request status bids winner, sampleAnswers.getJob "job" = .ok (some (request, status)) →
        sampleAnswers.listBids "job" = .ok bids →
          chooseBid (fun _ => "Bidding") (.withDefaults sampleProfiles) sampleAnswers "job" "job" =
              .ok winner →
            HonoursPolicy (.withDefaults sampleProfiles) request bids winner.1 := by
  intro h
  have hwinner := (h lowestPriceRequest (.of .bidding) [unknownBid, reputableBid]
    (unknownBid, 1.0, "lowest_price_5") rfl rfl rfl).admitted 50 rfl
  obtain ⟨profile, hprofile, _⟩ := hwinner
  cases hprofile

end MeshJobs

end Icn
