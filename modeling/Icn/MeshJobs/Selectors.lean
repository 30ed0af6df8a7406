import Icn.Foundation.Log.FirstBest
import Icn.Foundation.Run.Fallible
import Icn.MeshJobs.Models
import Mathlib.Order.Nat
import Mathlib.Order.OrderDual

/-!
# The executor selectors

Three selectors pick one of the bids for a job. By price it is the first of the cheapest
bids, by reputation the first of the bids with the best score, and the hybrid selector
leaves out the bidders below the minimum reputation of its policy before it goes on by
reputation or price.

Scores are any linear order with the arithmetic that the selectors use.
-/

open Foundation

namespace Icn

namespace MeshJobs

open Identity

inductive SelectionStrategy where
  | lowestPrice
  | reputation
  | hybrid
deriving DecidableEq, Repr

structure ExecutionPolicy (F : Type) where
  repWeight : F
  priceWeight : F
  regionFilter : Option String
  minReputation : Option F
  selectionStrategy : SelectionStrategy

structure BidEvaluatorConfig (F : Type) where
  weightPrice : F
  weightResources : F
  weightReputation : F
  weightTimeliness : F

structure ResourceEstimate where
  cpu : UInt32
  memoryMb : UInt32
  storageMb : UInt32

structure ResourceRequirementsV1 where
  cpuCores : UInt32
  memoryMb : UInt32
  storageGb : UInt32

structure MeshJobParams where
  requiredMana : Option UInt64
  requirementsV1 : ResourceRequirementsV1

structure ManaState where
  currentMana : UInt64

structure ReputationProfile (F : Type) where
  successfulJobs : UInt64
  jobsOnTime : UInt64
  computedScore : F
  manaState : Option ManaState

inductive ReputationClientError where
  | network (e : String)
  | http (status message : String)
  | deserialization (message : String)
  | clientBuild (e : String)

def ReputationClientError.toString : ReputationClientError → String
  | network e => s!"Network error while communicating with reputation service: {e}"
  | http status message => s!"Reputation service returned HTTP error {status}: {message}"
  | deserialization message =>
      s!"Failed to deserialize response from reputation service: {message}"
  | clientBuild e => s!"Failed to build HTTP client for reputation service: {e}"

inductive SelectionError where
  | internal (reason : String)
  | reputationServiceError (e : ReputationClientError)

def SelectionError.toString : SelectionError → String
  | internal reason => s!"Internal error during executor selection: {reason}"
  | reputationServiceError e => "Reputation service interaction failed: " ++ e.toString

structure ReputationClient (F : Type) where
  fetchProfile : Did → Except ReputationClientError (Option (ReputationProfile F))
  calculateBidScore : BidEvaluatorConfig F → ReputationProfile F → F → F → F

abbrev MarketTypes (Cid F : Type) : JobTypes where
  Cid := Cid
  MeshJobParams := MeshJobParams
  ExecutionPolicy := ExecutionPolicy F
  ResourceEstimate := ResourceEstimate
  Score := F

abbrev Selection (Cid F : Type) := Bid (MarketTypes Cid F) × F × String

variable {Cid F : Type}

section LowestPrice

variable [OfScientific F]

def keepCheaper {T : JobTypes} (bestBid bidItem : Bid T) : Bid T :=
  if bidItem.priceAttoIcn < bestBid.priceAttoIcn then bidItem else bestBid

def LowestPriceExecutorSelector.select :
    List (Bid (MarketTypes Cid F)) → Option (Selection Cid F)
  | [] => none
  | first :: rest =>
      let bestBid := rest.foldl keepCheaper first
      some (bestBid, 1.0, s!"lowest_price_{bestBid.priceAttoIcn}")

/-- No eligible bid is cheaper, and none before it is as cheap. -/
def Cheapest {T : JobTypes} (eligible : Bid T → Prop) (bids : List (Bid T)) (bid : Bid T) : Prop :=
  ∃ front back, bids = front ++ bid :: back ∧
    (∀ other ∈ front, eligible other → bid.priceAttoIcn < other.priceAttoIcn) ∧
    ∀ other ∈ back, eligible other → bid.priceAttoIcn ≤ other.priceAttoIcn

theorem Cheapest.mem {T : JobTypes} {eligible : Bid T → Prop} {bids : List (Bid T)} {bid : Bid T}
    (h : Cheapest eligible bids bid) : bid ∈ bids := by
  obtain ⟨front, back, rfl, _⟩ := h
  simp

theorem Cheapest.of_all {T : JobTypes} {bids : List (Bid T)} {bid : Bid T}
    (h : Cheapest (fun _ => True) bids bid) (eligible : Bid T → Prop) :
    Cheapest eligible bids bid := by
  obtain ⟨front, back, hbids, hfront, hback⟩ := h
  exact ⟨front, back, hbids, fun other hother _ => hfront other hother trivial,
    fun other hother _ => hback other hother trivial⟩

def priceMark {T : JobTypes} (bid : Bid T) : ℕᵒᵈ := OrderDual.toDual bid.priceAttoIcn.toNat

theorem priceMark_lt_iff {T : JobTypes} {bid bid' : Bid T} :
    priceMark bid < priceMark bid' ↔ bid'.priceAttoIcn < bid.priceAttoIcn :=
  OrderDual.toDual_lt_toDual.trans UInt64.lt_iff_toNat_lt.symm

theorem priceMark_le_iff {T : JobTypes} {bid bid' : Bid T} :
    priceMark bid ≤ priceMark bid' ↔ bid'.priceAttoIcn ≤ bid.priceAttoIcn :=
  OrderDual.toDual_le_toDual.trans UInt64.le_iff_toNat_le.symm

theorem firstBest_priceMark_iff {T : JobTypes} {bids : List (Bid T)} {bid : Bid T} :
    Log.FirstBest (fun bid => some (priceMark bid)) bids bid (priceMark bid) ↔
      Cheapest (fun _ => True) bids bid := by
  simp only [Log.FirstBest, Cheapest, true_and, Option.mem_def, Option.some.injEq,
    forall_eq', priceMark_lt_iff, priceMark_le_iff, forall_const]

theorem keepBetter_priceMark {T : JobTypes} (bestBid bidItem : Bid T) :
    Log.keepBetter (fun bid => some (priceMark bid)) (some (bestBid, priceMark bestBid)) bidItem =
      some (keepCheaper bestBid bidItem, priceMark (keepCheaper bestBid bidItem)) := by
  simp only [Log.keepBetter, keepCheaper, priceMark_lt_iff]
  split_ifs <;> rfl

theorem LowestPriceExecutorSelector.exists_select_iff {bids : List (Bid (MarketTypes Cid F))}
    {bid : Bid (MarketTypes Cid F)} :
    (∃ score : F, ∃ reason, select bids = some (bid, score, reason)) ↔
      Cheapest (fun _ => True) bids bid := by
  rw [← firstBest_priceMark_iff, ← Log.foldl_keepBetter_eq_some_iff]
  cases bids with
  | nil => simp [select]
  | cons first rest =>
      have hfold : rest.foldl (Log.keepBetter fun bid => some (priceMark bid))
          (some (first, priceMark first)) =
            some (rest.foldl keepCheaper first, priceMark (rest.foldl keepCheaper first)) :=
        List.foldl_hom (fun bid => some (bid, priceMark bid)) keepBetter_priceMark
      have hfirst : Log.keepBetter (fun bid => some (priceMark bid)) none first =
          some (first, priceMark first) := rfl
      rw [List.foldl_cons, hfirst, hfold]
      simp only [select, Option.some.injEq, Prod.mk.injEq]
      constructor
      · rintro ⟨_, _, rfl, _⟩
        exact ⟨rfl, rfl⟩
      · rintro ⟨rfl, _⟩
        exact ⟨_, _, rfl, rfl, rfl⟩

end LowestPrice

variable [LinearOrder F] [Add F] [Div F] [NatCast F] [OfScientific F] [ToString F]

def ExecutionPolicy.default : ExecutionPolicy F where
  repWeight := 0.7
  priceWeight := 0.3
  regionFilter := none
  minReputation := none
  selectionStrategy := .reputation

def ReputationProfile.default : ReputationProfile F where
  successfulJobs := 0
  jobsOnTime := 0
  computedScore := 50.0
  manaState := none

def DefaultReputationClient.calculateBidScore [Sub F] [Mul F] (config : BidEvaluatorConfig F)
    (profile : ReputationProfile F) (normalizedPrice resourceMatch : F) : F :=
  let reputationScore := profile.computedScore / 100.0
  let timelinessScore :=
    if 0 < profile.successfulJobs then
      (profile.jobsOnTime.toNat : F) / (profile.successfulJobs.toNat : F)
    else 0.5
  let priceComponent := config.weightPrice * (1.0 - normalizedPrice)
  let resourceComponent := config.weightResources * resourceMatch
  let reputationComponent := config.weightReputation * reputationScore
  let timelinessComponent := config.weightTimeliness * timelinessScore
  priceComponent + resourceComponent + reputationComponent + timelinessComponent

def ReputationClient.withDefaults [Sub F] [Mul F]
    (fetchProfile : Did → Except ReputationClientError (Option (ReputationProfile F))) :
    ReputationClient F :=
  ⟨fetchProfile, DefaultReputationClient.calculateBidScore⟩

def resourceShare (offered required : UInt32) : F :=
  if required ≤ offered then 1.0
  else if required = 0 then 1.0
  else (offered.toNat : F) / (required.toNat : F)

def calculateResourceMatch (bidResources : ResourceEstimate)
    (jobRequirements : ResourceRequirementsV1) : F :=
  let cpuMatch : F := resourceShare bidResources.cpu jobRequirements.cpuCores
  let memoryMatch : F := resourceShare bidResources.memoryMb jobRequirements.memoryMb
  let storageMatch : F := resourceShare (bidResources.storageMb / 1024) jobRequirements.storageGb
  max 0.0 (min ((cpuMatch + memoryMatch + storageMatch) / 3.0) 1.0)

structure ReputationExecutorSelector (F : Type) where
  config : BidEvaluatorConfig F
  reputationClient : ReputationClient F

def ReputationClient.profileOf (client : ReputationClient F) (bidder : Did) :
    Except SelectionError (ReputationProfile F) :=
  ((client.fetchProfile bidder).mapError .reputationServiceError).map
    fun profile => profile.getD .default

def ReputationProfile.hasSufficientMana (profile : ReputationProfile F)
    (requiredMana : Option UInt64) : Bool :=
  requiredMana.all fun required => profile.manaState.any fun mana => required ≤ mana.currentMana

namespace ReputationExecutorSelector

variable (selector : ReputationExecutorSelector F) (request : JobRequest (MarketTypes Cid F))
  {bids : List (Bid (MarketTypes Cid F))} {bid : Bid (MarketTypes Cid F)}

def bidScore (maxPrice : UInt64) (bidItem : Bid (MarketTypes Cid F))
    (profile : ReputationProfile F) : Option F :=
  if profile.hasSufficientMana request.params.requiredMana then
    let normalizedPrice : F :=
      if 0 < maxPrice then (bidItem.priceAttoIcn.toNat : F) / (maxPrice.toNat : F) else 0.0
    let resourceMatch := calculateResourceMatch bidItem.data request.params.requirementsV1
    let score := selector.reputationClient.calculateBidScore selector.config profile
      normalizedPrice resourceMatch
    if score < 0.0 then none else some score
  else none

def reason (score : F) : String := s!"selected_by_reputation_score_{score}"

def keepBest (best : Option (Selection Cid F)) (bidItem : Bid (MarketTypes Cid F)) (score : F) :
    Option (Selection Cid F) :=
  match best with
  | none => some (bidItem, score, reason score)
  | some (bestBid, bestScore, bestReason) =>
      if bestScore < score then some (bidItem, score, reason score)
      else some (bestBid, bestScore, bestReason)

/-- The best bid after one more, whose bidder is looked up first. -/
def consider (maxPrice : UInt64) (best : Option (Selection Cid F))
    (bidItem : Bid (MarketTypes Cid F)) : Except SelectionError (Option (Selection Cid F)) :=
  (selector.reputationClient.profileOf bidItem.bidder).map fun profile =>
    match selector.bidScore request maxPrice bidItem profile with
    | none => best
    | some score => keepBest best bidItem score

def maxPrice (bids : List (Bid (MarketTypes Cid F))) : UInt64 :=
  (bids.map Bid.priceAttoIcn).max?.getD 1

def select (bids : List (Bid (MarketTypes Cid F))) :
    Except SelectionError (Option (Selection Cid F)) :=
  if bids.isEmpty then .ok none
  else bids.foldlM (selector.consider request (maxPrice bids)) none

def mark (maxPrice : UInt64) (bidItem : Bid (MarketTypes Cid F)) : Option F :=
  (selector.reputationClient.profileOf bidItem.bidder).toOption.bind
    (selector.bidScore request maxPrice bidItem)

/-- Every bidder can be looked up, and of the bids that are not disqualified this is the
first with the best score. -/
def BestScored (bids : List (Bid (MarketTypes Cid F))) (bid : Bid (MarketTypes Cid F)) : Prop :=
  (∀ other ∈ bids, (selector.reputationClient.fetchProfile other.bidder).isOk) ∧
    ∃ score, Log.FirstBest (selector.mark request (maxPrice bids)) bids bid score

omit [ToString F] in
variable {selector request} in
theorem BestScored.mem (h : selector.BestScored request bids bid) : bid ∈ bids := by
  obtain ⟨_, _, hbest⟩ := h
  exact hbest.mem

def ofScored (best : Bid (MarketTypes Cid F) × F) : Selection Cid F :=
  (best.1, best.2, reason best.2)

def considerFetched (maxPrice : UInt64) (best : Option (Selection Cid F))
    (bidItem : Bid (MarketTypes Cid F)) : Option (Selection Cid F) :=
  match selector.mark request maxPrice bidItem with
  | none => best
  | some score => keepBest best bidItem score

theorem consider_eq_ok_iff (maxPrice : UInt64) (best : Option (Selection Cid F))
    (bidItem : Bid (MarketTypes Cid F)) (out : Option (Selection Cid F)) :
    selector.consider request maxPrice best bidItem = .ok out ↔
      (selector.reputationClient.fetchProfile bidItem.bidder).isOk ∧
        selector.considerFetched request maxPrice best bidItem = out := by
  simp only [consider, considerFetched, mark, ReputationClient.profileOf]
  cases selector.reputationClient.fetchProfile bidItem.bidder with
  | error e => exact iff_of_false (nomatch ·) (fun h => nomatch h.1)
  | ok profile =>
      simp only [Except.mapError, Except.map, Except.toOption, Option.bind_some, Except.isOk,
        Except.toBool, true_and, Except.ok.injEq]

theorem considerFetched_ofScored (maxPrice : UInt64) (best : Option (Bid (MarketTypes Cid F) × F))
    (bidItem : Bid (MarketTypes Cid F)) :
    selector.considerFetched request maxPrice (best.map ofScored) bidItem =
      (Log.keepBetter (selector.mark request maxPrice) best bidItem).map ofScored := by
  unfold considerFetched Log.keepBetter
  cases selector.mark request maxPrice bidItem with
  | none => rfl
  | some score =>
      cases best with
      | none => rfl
      | some best =>
          simp only [Option.map_some, keepBest, ofScored]
          split_ifs <;> rfl

/-- The selector by reputation picks the first of the bids with the best score. -/
theorem exists_select_iff :
    (∃ score reason, selector.select request bids = .ok (some (bid, score, reason))) ↔
      selector.BestScored request bids bid := by
  have hscan (best : Option (Bid (MarketTypes Cid F) × F)) :
      bids.foldl (selector.considerFetched request (maxPrice bids)) (best.map ofScored) =
        (bids.foldl (Log.keepBetter (selector.mark request (maxPrice bids))) best).map ofScored :=
    List.foldl_hom (Option.map ofScored)
      (selector.considerFetched_ofScored request (maxPrice bids))
  have hfold : ∀ out, selector.select request bids = .ok out ↔
      (∀ other ∈ bids, (selector.reputationClient.fetchProfile other.bidder).isOk) ∧
        (bids.foldl (Log.keepBetter (selector.mark request (maxPrice bids))) none).map ofScored =
          out := by
    intro out
    rw [← hscan, ← Fallible.foldlM_eq_ok_iff (selector.consider_eq_ok_iff request (maxPrice bids))]
    cases bids <;> rfl
  simp only [BestScored, hfold, ← Log.foldl_keepBetter_eq_some_iff, Option.map_eq_some_iff]
  constructor
  · rintro ⟨score, text, hfetch, ⟨other, otherScore⟩, hbest, heq⟩
    cases heq
    exact ⟨hfetch, otherScore, hbest⟩
  · rintro ⟨hfetch, score, hbest⟩
    exact ⟨score, reason score, hfetch, (bid, score), hbest, rfl⟩

end ReputationExecutorSelector

variable [Sub F]

/-- The bidder has the reputation that the policy asks for. -/
def ExecutionPolicy.Admits (policy : ExecutionPolicy F) (client : ReputationClient F)
    (bid : Bid (MarketTypes Cid F)) : Prop :=
  ∀ minRep ∈ policy.minReputation, ∃ profile,
    client.fetchProfile bid.bidder = .ok (some profile) ∧ minRep ≤ profile.computedScore

structure HybridExecutorSelector (F : Type) where
  policy : ExecutionPolicy F
  reputationClient : ReputationClient F

namespace HybridExecutorSelector

variable (selector : HybridExecutorSelector F)

def filterBids (minRep : F) (bids : List (Bid (MarketTypes Cid F))) :
    Except SelectionError (List (Bid (MarketTypes Cid F))) :=
  bids.foldlM
    (fun filteredBids bidItem =>
      ((selector.reputationClient.fetchProfile bidItem.bidder).mapError
        .reputationServiceError).map fun profile =>
          if profile.any fun profile => minRep ≤ profile.computedScore then
            filteredBids ++ [bidItem]
          else filteredBids) []

def reputationSelector : ReputationExecutorSelector F where
  config :=
    { weightPrice := selector.policy.priceWeight
      weightReputation := selector.policy.repWeight
      weightResources :=
        max (1.0 - selector.policy.priceWeight - selector.policy.repWeight) 0.0 / 2.0
      weightTimeliness :=
        max (1.0 - selector.policy.priceWeight - selector.policy.repWeight) 0.0 / 2.0 }
  reputationClient := selector.reputationClient

def filteredBids (bids : List (Bid (MarketTypes Cid F))) :
    Except SelectionError (List (Bid (MarketTypes Cid F))) :=
  match selector.policy.minReputation with
  | some minRep => selector.filterBids minRep bids
  | none => .ok bids

def applyStrategy (request : JobRequest (MarketTypes Cid F))
    (filteredBids : List (Bid (MarketTypes Cid F))) :
    Except SelectionError (Option (Selection Cid F)) :=
  if filteredBids.isEmpty then .ok none
  else
    match selector.policy.selectionStrategy with
    | .lowestPrice => .ok (LowestPriceExecutorSelector.select filteredBids)
    | .reputation | .hybrid => selector.reputationSelector.select request filteredBids

def select (request : JobRequest (MarketTypes Cid F)) (bids : List (Bid (MarketTypes Cid F))) :
    Except SelectionError (Option (Selection Cid F)) :=
  if bids.isEmpty then .ok none
  else selector.filteredBids bids >>= selector.applyStrategy request

def reputable (minRep : F) (bidItem : Bid (MarketTypes Cid F)) : Bool :=
  (selector.reputationClient.fetchProfile bidItem.bidder).toOption.join.any
    fun profile => minRep ≤ profile.computedScore

omit [Add F] [Div F] [NatCast F] [OfScientific F] [ToString F] [Sub F] in
theorem reputable_iff (minRep : F) (bidItem : Bid (MarketTypes Cid F)) :
    selector.reputable minRep bidItem ↔ ∃ profile,
      selector.reputationClient.fetchProfile bidItem.bidder = .ok (some profile) ∧
        minRep ≤ profile.computedScore := by
  unfold reputable
  cases selector.reputationClient.fetchProfile bidItem.bidder with
  | error e => simp [Except.toOption]
  | ok profile => cases profile <;> simp [Except.toOption]

omit [Add F] [Div F] [NatCast F] [OfScientific F] [ToString F] [Sub F] in
theorem filterBids_eq_ok_iff (minRep : F) {bids filteredBids : List (Bid (MarketTypes Cid F))} :
    selector.filterBids minRep bids = .ok filteredBids ↔
      (∀ bidItem ∈ bids, (selector.reputationClient.fetchProfile bidItem.bidder).isOk) ∧
        bids.filter (selector.reputable minRep) = filteredBids := by
  have hfilter : bids.filter (selector.reputable minRep) =
      bids.foldl (fun filteredBids bidItem =>
        if selector.reputable minRep bidItem then filteredBids ++ [bidItem] else filteredBids)
          [] := by
    rw [← List.foldl_filter, List.foldl_append_eq_append, List.nil_append, ← List.flatMap_def,
      List.flatMap_singleton']
  rw [hfilter]
  refine Fallible.foldlM_eq_ok_iff fun filteredBids bidItem out => ?_
  unfold reputable
  cases selector.reputationClient.fetchProfile bidItem.bidder with
  | error e => exact iff_of_false (nomatch ·) (fun h => nomatch h.1)
  | ok profile =>
      simp only [Except.mapError, Except.map, Except.toOption, Option.join_some, Except.isOk,
        Except.toBool, true_and, Except.ok.injEq]
      rfl

omit [Add F] [Div F] [NatCast F] [OfScientific F] [ToString F] [Sub F] in
theorem mem_and_admits_of_filteredBids {bids filteredBids : List (Bid (MarketTypes Cid F))}
    (h : selector.filteredBids bids = .ok filteredBids) {bidItem : Bid (MarketTypes Cid F)}
    (hbid : bidItem ∈ filteredBids) :
    bidItem ∈ bids ∧ selector.policy.Admits selector.reputationClient bidItem := by
  unfold HybridExecutorSelector.filteredBids at h
  unfold ExecutionPolicy.Admits
  cases hmin : selector.policy.minReputation with
  | none =>
      rw [hmin] at h
      cases h
      exact ⟨hbid, by simp⟩
  | some minRep =>
      rw [hmin] at h
      obtain ⟨_, rfl⟩ := (selector.filterBids_eq_ok_iff minRep).mp h
      obtain ⟨hmem, hreputable⟩ := List.mem_filter.mp hbid
      refine ⟨hmem, fun minRep' hminRep' => ?_⟩
      rw [← Option.some.inj hminRep']
      exact (selector.reputable_iff minRep bidItem).mp hreputable

theorem mem_of_applyStrategy {request : JobRequest (MarketTypes Cid F)}
    {filteredBids : List (Bid (MarketTypes Cid F))} {winner : Selection Cid F}
    (h : selector.applyStrategy request filteredBids = .ok (some winner)) :
    winner.1 ∈ filteredBids := by
  obtain ⟨bid, score, reason⟩ := winner
  have hreputation (h : selector.reputationSelector.select request filteredBids =
      .ok (some (bid, score, reason))) : bid ∈ filteredBids :=
    ((selector.reputationSelector.exists_select_iff request).mp ⟨score, reason, h⟩).mem
  unfold applyStrategy at h
  split_ifs at h with hempty
  · cases h
  · cases hstrategy : selector.policy.selectionStrategy with
    | lowestPrice =>
        rw [hstrategy] at h
        exact (LowestPriceExecutorSelector.exists_select_iff.mp
          ⟨score, reason, Except.ok.inj h⟩).mem
    | reputation =>
        rw [hstrategy] at h
        exact hreputation h
    | hybrid =>
        rw [hstrategy] at h
        exact hreputation h

theorem mem_and_admits_of_select {request : JobRequest (MarketTypes Cid F)}
    {bids : List (Bid (MarketTypes Cid F))} {winner : Selection Cid F}
    (h : selector.select request bids = .ok (some winner)) :
    winner.1 ∈ bids ∧ selector.policy.Admits selector.reputationClient winner.1 := by
  unfold select at h
  split_ifs at h with hempty
  · cases h
  · obtain ⟨filteredBids, hfiltered, hwinner⟩ := Fallible.bind_eq_ok_iff.mp h
    exact selector.mem_and_admits_of_filteredBids hfiltered (selector.mem_of_applyStrategy hwinner)

end HybridExecutorSelector

end MeshJobs

end Icn
