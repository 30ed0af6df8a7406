import Icn.Foundation.Log.StableSort
import Icn.AgoraNet.Ledger.Handlers

/-!
# Queries

A query selects transfers of the history, sorts them newest first and cuts out a page.
`Satisfies` is the filter that is asked for: an entity of the id and the kind that are given
is to be the source, the destination or either of them.

The code compares ids and kinds for each side alone. So a transfer whose sides share the id is
lost if one of them has another kind, with both directions asked for only the source counts,
and without an id no direction does: a query is answered exactly if it meets no such transfer
and its offsets reach to the end of the result (`queriesExactly_iff`).
-/

open Foundation

namespace Icn

namespace AgoraNet

open Identity

def queryTransfers {κ : Type} (auth : AuthenticatedRequest) (federationId : String)
    (query : TransferQuery) (store : Option (Ledger κ)) : Except ApiError (List Transfer) :=
  if !auth.claims.hasFederationAccess federationId then
    .error (.unauthorized "No access to this federation")
  else
    let filteredQuery := { query with federationId := some federationId }
    match store with
    | none => .error (.internalServerError "Ledger not initialized")
    | some ledger => .ok (ledger.queryTransfers filteredQuery)

namespace TransferQuery

variable (query : TransferQuery)

/-- The entity is one that the query asks for. -/
def IsEntity (entity : EntityRef) : Prop :=
  (∀ id ∈ query.entityId, entity.id = id) ∧
    ∀ entityType ∈ query.entityType, entity.entityType = entityType

instance (entity : EntityRef) : Decidable (query.IsEntity entity) :=
  inferInstanceAs (Decidable (_ ∧ _))

/-- A side of the transfer is an entity that the query asks for, and it is on the side asked
for. -/
def SatisfiesEntity (transfer : Transfer) : Prop :=
  (query.IsEntity transfer.fromEntity ∨ query.IsEntity transfer.toEntity) ∧
    (query.fromOnly = some true → query.IsEntity transfer.fromEntity) ∧
    (query.toOnly = some true → query.IsEntity transfer.toEntity)

instance (transfer : Transfer) : Decidable (query.SatisfiesEntity transfer) :=
  inferInstanceAs (Decidable (_ ∧ _))

/-- The federation, the dates and the amounts that the query asks for. -/
def SatisfiesRest (transfer : Transfer) : Prop :=
  (∀ federationId ∈ query.federationId, transfer.federationId = federationId) ∧
    (∀ start ∈ query.startDate, start ≤ transfer.timestamp) ∧
    (∀ stop ∈ query.endDate, transfer.timestamp ≤ stop) ∧
    (∀ low ∈ query.minAmount, low ≤ transfer.amount) ∧
    ∀ high ∈ query.maxAmount, transfer.amount ≤ high

-- a bound that is given is one number, so none of the words is to be searched for
instance (transfer : Transfer) : Decidable (query.SatisfiesRest transfer) :=
  @instDecidableAnd _ _ (Option.decidableForallMem _)
    (@instDecidableAnd _ _ (Option.decidableForallMem _)
      (@instDecidableAnd _ _ (Option.decidableForallMem _)
        (@instDecidableAnd _ _ (Option.decidableForallMem _) (Option.decidableForallMem _))))

/-- All the filters of the query. -/
def Satisfies (transfer : Transfer) : Prop :=
  query.SatisfiesRest transfer ∧ query.SatisfiesEntity transfer

instance (transfer : Transfer) : Decidable (query.Satisfies transfer) :=
  inferInstanceAs (Decidable (_ ∧ _))

/-- With an id, the filter by entity decides by the wrong side: with both directions it looks
at the source alone, and where the sides share the id it refuses for the kind of the other. -/
def ConfusedById (id : String) (transfer : Transfer) : Prop :=
  query.fromOnly = some true ∧ query.toOnly = some true ∧
      query.IsEntity transfer.fromEntity ∧ transfer.toEntity.id ≠ id ∨
    transfer.fromEntity.id = id ∧ transfer.toEntity.id = id ∧
      (query.toOnly ≠ some true ∧ query.IsEntity transfer.fromEntity ∧
          ¬ query.IsEntity transfer.toEntity ∨
        query.fromOnly ≠ some true ∧ query.IsEntity transfer.toEntity ∧
          ¬ query.IsEntity transfer.fromEntity)

/-- Without an id, no direction is looked at: the kind is that of the wrong side only. -/
def ConfusedByKind (transfer : Transfer) : Prop :=
  query.fromOnly = some true ∧ query.IsEntity transfer.toEntity ∧
      ¬ query.IsEntity transfer.fromEntity ∨
    query.toOnly = some true ∧ query.IsEntity transfer.fromEntity ∧
      ¬ query.IsEntity transfer.toEntity

/-- The filter by entity decides about the transfer by the wrong side. -/
def Confused (transfer : Transfer) : Prop :=
  (∃ id ∈ query.entityId, query.ConfusedById id transfer) ∨
    query.entityId = none ∧ query.ConfusedByKind transfer

def unpaged : TransferQuery := { query with offset := none, limit := none }

def pageAt (size : UInt32) (k : ℕ) : TransferQuery :=
  { query with offset := some (UInt32.ofNat (k * size.toNat)), limit := some size }

variable {query}

theorem matchesEntity_iff_of_entityId_eq_some {id : String} (h : query.entityId = some id)
    (transfer : Transfer) : (query.matchesEntity transfer = true ↔ query.SatisfiesEntity transfer) ↔
      ¬ query.ConfusedById id transfer := by
  rw [SatisfiesEntity, ConfusedById, IsEntity, IsEntity, matchesEntity, h]
  -- the flags and the kind are given or not; the rest is about ids and kinds of two sides
  rcases query.fromOnly with _ | _ | _ <;> rcases query.toOnly with _ | _ | _ <;>
    rcases query.entityType with _ | entityType <;> simp <;> grind

theorem matchesEntity_iff_of_entityId_eq_none (h : query.entityId = none) (transfer : Transfer) :
    (query.matchesEntity transfer = true ↔ query.SatisfiesEntity transfer) ↔
      ¬ query.ConfusedByKind transfer := by
  have hkind : query.matchesEntity transfer = true ↔
      query.IsEntity transfer.fromEntity ∨ query.IsEntity transfer.toEntity := by
    rw [IsEntity, IsEntity, matchesEntity, h]
    cases query.entityType with
    | none => simp
    | some entityType => simp [-not_and, Decidable.or_iff_not_not_and_not]
  rw [hkind, SatisfiesEntity, ConfusedByKind]
  tauto

/-- The filter by entity is right for a transfer exactly if it is not confused by it. -/
theorem matchesEntity_iff (transfer : Transfer) :
    (query.matchesEntity transfer = true ↔ query.SatisfiesEntity transfer) ↔
      ¬ query.Confused transfer := by
  rw [Confused]
  cases hid : query.entityId with
  | none =>
      rw [matchesEntity_iff_of_entityId_eq_none hid]
      simp
  | some id =>
      rw [matchesEntity_iff_of_entityId_eq_some hid]
      simp

theorem admits_iff (transfer : Transfer) : query.admits transfer = true ↔
    query.SatisfiesRest transfer ∧ query.matchesEntity transfer = true := by
  rw [admits, SatisfiesRest]
  simp only [Bool.and_eq_true, Option.all_eq_true, beq_iff_eq, Bool.not_eq_true',
    decide_eq_false_iff_not, not_lt, UInt64.not_lt, Option.mem_def]
  tauto

theorem admits_iff_satisfies {transfer : Transfer}
    (h : query.SatisfiesRest transfer → ¬ query.Confused transfer) :
    query.admits transfer = true ↔ query.Satisfies transfer := by
  rw [admits_iff, Satisfies]
  exact and_congr_right fun hrest => (matchesEntity_iff transfer).mpr (h hrest)

theorem sublist_page (results : List Transfer) : (query.page results).Sublist results := by
  have hoffset : ∀ offset : ℕ,
      (if offset < results.length then results.drop offset else []).Sublist results := by
    intro offset
    split
    · exact List.drop_sublist _ _
    · exact List.nil_sublist _
  have hlimit : ∀ (l : List Transfer) (limit : ℕ), l.Sublist results →
      (if limit < l.length then l.take limit else l).Sublist results := by
    intro l limit hl
    split
    · exact (List.take_sublist _ _).trans hl
    · exact hl
  rw [page]
  rcases query.offset with _ | offset <;> rcases query.limit with _ | limit
  · exact List.Sublist.refl _
  · exact hlimit _ _ (List.Sublist.refl _)
  · exact hoffset _
  · exact hlimit _ _ (hoffset _)

theorem page_pageAt {size : UInt32} {k : ℕ} (hoffset : k * size.toNat < 2 ^ 32)
    (results : List Transfer) :
    (query.pageAt size k).page results = (results.drop (k * size.toNat)).take size.toNat := by
  have htoNat : (UInt32.ofNat (k * size.toNat)).toNat = k * size.toNat :=
    Nat.mod_eq_of_lt hoffset
  have hdrop : (if k * size.toNat < results.length then results.drop (k * size.toNat) else []) =
      results.drop (k * size.toNat) := by
    split
    · rfl
    · next h => exact (List.drop_eq_nil_of_le (not_lt.mp h)).symm
  simp only [page, pageAt, htoNat, hdrop]
  split
  · rfl
  · next h => exact (List.take_of_length_le (not_lt.mp h)).symm

end TransferQuery

namespace Ledger

variable {κ : Type} (ledger : Ledger κ) (query : TransferQuery)

/-- The result is what satisfies the filters, newest first and in the order of the history
within an instant, and the pages of every size make it up. -/
structure QueriesExactly : Prop where
  mem_iff : ∀ transfer, transfer ∈ ledger.queryTransfers query.unpaged ↔
    transfer ∈ ledger.transfers ∧ query.Satisfies transfer
  newestFirst : (ledger.queryTransfers query.unpaged).Pairwise
    fun transfer transfer' => transfer'.timestamp ≤ transfer.timestamp
  stable : ∀ time,
    ((ledger.queryTransfers query.unpaged).filter fun transfer => transfer.timestamp = time) =
      ledger.transfers.filter fun transfer =>
        query.Satisfies transfer ∧ transfer.timestamp = time
  pages : ∀ size : UInt32, size ≠ 0 →
    ((List.range ((2 ^ 32 - 1) / size.toNat + 1)).flatMap fun k =>
        ledger.queryTransfers (query.pageAt size k)) =
      ledger.queryTransfers query.unpaged

variable {ledger query}

theorem queryTransfers_unpaged : ledger.queryTransfers query.unpaged =
    (ledger.transfers.filter query.admits).mergeSort
      fun transfer transfer' => decide (transfer'.timestamp ≤ transfer.timestamp) := rfl

theorem queryTransfers_pageAt {size : UInt32} {k : ℕ} (hoffset : k * size.toNat < 2 ^ 32) :
    ledger.queryTransfers (query.pageAt size k) =
      ((ledger.queryTransfers query.unpaged).drop (k * size.toNat)).take size.toNat :=
  TransferQuery.page_pageAt hoffset _

theorem flatMap_pageAt {size : UInt32} :
    ((List.range ((2 ^ 32 - 1) / size.toNat + 1)).flatMap fun k =>
        ledger.queryTransfers (query.pageAt size k)) =
      (ledger.queryTransfers query.unpaged).take
        (((2 ^ 32 - 1) / size.toNat + 1) * size.toNat) := by
  rw [← Log.flatMap_pages]
  refine List.flatMap_congr fun k hk => queryTransfers_pageAt ?_
  have hk : k ≤ (2 ^ 32 - 1) / size.toNat := Nat.lt_succ_iff.mp (List.mem_range.mp hk)
  have hle := (Nat.mul_le_mul_right size.toNat hk).trans (Nat.div_mul_le_self _ _)
  omega

theorem newer_trans (a b c : Transfer) (hab : decide (b.timestamp ≤ a.timestamp) = true)
    (hbc : decide (c.timestamp ≤ b.timestamp) = true) :
    decide (c.timestamp ≤ a.timestamp) = true :=
  decide_eq_true ((of_decide_eq_true hbc).trans (of_decide_eq_true hab))

theorem newer_total (a b : Transfer) :
    (decide (b.timestamp ≤ a.timestamp) || decide (a.timestamp ≤ b.timestamp)) = true := by
  rw [Bool.or_eq_true, decide_eq_true_eq, decide_eq_true_eq]
  exact le_total _ _

theorem newestFirst_queryTransfers (ledger : Ledger κ) (query : TransferQuery) :
    (ledger.queryTransfers query.unpaged).Pairwise
      fun transfer transfer' => transfer'.timestamp ≤ transfer.timestamp :=
  (List.pairwise_mergeSort newer_trans newer_total
    (ledger.transfers.filter query.admits)).imp of_decide_eq_true

theorem filter_queryTransfers (ledger : Ledger κ) (query : TransferQuery) (time : Timestamp) :
    ((ledger.queryTransfers query.unpaged).filter fun transfer => transfer.timestamp = time) =
      (ledger.transfers.filter query.admits).filter fun transfer =>
        transfer.timestamp = time := by
  refine Log.filter_mergeSort newer_trans newer_total ?_ _
  intro a b ha hb
  rw [decide_eq_true_eq] at ha hb ⊢
  rw [ha, hb]

theorem of_mem_queryTransfers {transfer : Transfer} (h : transfer ∈ ledger.queryTransfers query) :
    transfer ∈ ledger.transfers ∧ query.admits transfer = true :=
  List.mem_filter.mp (List.mem_mergeSort.mp ((TransferQuery.sublist_page _).subset h))

theorem mem_queryTransfers (transfer : Transfer) :
    transfer ∈ ledger.queryTransfers query.unpaged ↔
      transfer ∈ ledger.transfers ∧ query.admits transfer = true := by
  rw [queryTransfers_unpaged, List.mem_mergeSort, List.mem_filter]

/-- Where no transfer confuses the filter, the history is filtered as it should be. -/
theorem filter_admits (h : ∀ transfer ∈ ledger.transfers, query.SatisfiesRest transfer →
      ¬ query.Confused transfer) :
    ledger.transfers.filter query.admits =
      ledger.transfers.filter fun transfer => query.Satisfies transfer := by
  refine List.filter_congr fun transfer hmem => Bool.eq_iff_iff.mpr ?_
  rw [TransferQuery.admits_iff_satisfies (h transfer hmem), decide_eq_true_eq]

/-- **Queries.** A query is answered exactly if none of the transfers that pass its other
filters confuses its filter by entity, and no more satisfy it than offsets can count. -/
theorem queriesExactly_iff (ledger : Ledger κ) (query : TransferQuery) :
    ledger.QueriesExactly query ↔
      (∀ transfer ∈ ledger.transfers, query.SatisfiesRest transfer → ¬ query.Confused transfer) ∧
        (ledger.transfers.filter fun transfer => query.Satisfies transfer).length ≤ 2 ^ 32 := by
  have hlength : (ledger.queryTransfers query.unpaged).length =
      (ledger.transfers.filter query.admits).length := List.length_mergeSort _
  constructor
  · intro h
    have hconfused : ∀ transfer ∈ ledger.transfers, query.SatisfiesRest transfer →
        ¬ query.Confused transfer := by
      intro transfer hmem hrest
      rw [← TransferQuery.matchesEntity_iff]
      have hiff := h.mem_iff transfer
      rw [mem_queryTransfers, TransferQuery.admits_iff, TransferQuery.Satisfies] at hiff
      tauto
    refine ⟨hconfused, ?_⟩
    have hpages := congrArg List.length (flatMap_pageAt.symm.trans (h.pages 1 (by decide)))
    rw [List.length_take, hlength, filter_admits hconfused] at hpages
    exact min_eq_right_iff.mp hpages
  · rintro ⟨hconfused, hcount⟩
    rw [← filter_admits hconfused, ← hlength] at hcount
    refine ⟨fun transfer => ?_, newestFirst_queryTransfers ledger query, fun time => ?_,
      fun size hsize => ?_⟩
    · rw [mem_queryTransfers]
      exact and_congr_right fun hmem =>
        TransferQuery.admits_iff_satisfies (hconfused transfer hmem)
    · rw [filter_queryTransfers, filter_admits hconfused, List.filter_filter]
      refine List.filter_congr fun transfer _ => ?_
      rw [Bool.and_comm, Bool.decide_and]
    · rw [flatMap_pageAt]
      refine List.take_of_length_le (hcount.trans ?_)
      have hpos : 0 < size.toNat :=
        Nat.pos_of_ne_zero fun hzero => hsize (UInt32.toNat_inj.mp hzero)
      have hdiv := Nat.lt_div_mul_add (a := 2 ^ 32 - 1) hpos
      rw [Nat.add_one_mul]
      omega

def sharedIdTransfer : Transfer where
  txId := "tx1"
  federationId := "federation1"
  fromEntity := ⟨.cooperative, "riverside"⟩
  toEntity := ⟨.community, "riverside"⟩
  amount := 10
  fee := 0
  initiator := "did:icn:operator"
  timestamp := 0
  memo := none
  metadata := none

def sentByCooperative : TransferQuery where
  federationId := none
  entityId := some "riverside"
  entityType := some .cooperative
  fromOnly := some true
  toOnly := none
  startDate := none
  endDate := none
  minAmount := none
  maxAmount := none
  limit := none
  offset := none

/-- The transfer is not found, for its destination is no cooperative. -/
theorem sharedIdTransfer_not_queriesExactly :
    ¬ (⟨∅, [sharedIdTransfer], ∅⟩ : Ledger String).QueriesExactly sentByCooperative := by
  intro h
  have hmem : sharedIdTransfer ∈ (⟨∅, [sharedIdTransfer], ∅⟩ : Ledger String).queryTransfers
      sentByCooperative.unpaged := (h.mem_iff sharedIdTransfer).mpr (by decide)
  exact absurd ((mem_queryTransfers sharedIdTransfer).mp hmem).2 (by decide)

end Ledger

section Endpoint

variable {κ : Type} {auth : AuthenticatedRequest} {federationId : String}
  {query : TransferQuery} {store : Option (Ledger κ)} {transfers : List Transfer}

/-- The endpoint gives a caller with access transfers of the federation in the path, whatever
the query names. -/
theorem confined_of_queryTransfers
    (h : queryTransfers auth federationId query store = .ok transfers) :
    auth.claims.hasFederationAccess federationId = true ∧
      ∀ transfer ∈ transfers, transfer.federationId = federationId := by
  rw [queryTransfers] at h
  split at h
  · cases h
  next haccess =>
  rw [Bool.not_eq_true, Bool.not_eq_false'] at haccess
  refine ⟨haccess, fun transfer hmem => ?_⟩
  cases store with
  | none => cases h
  | some ledger =>
      obtain rfl := Except.ok.inj h
      have hadmitted := (Ledger.of_mem_queryTransfers hmem).2
      exact ((TransferQuery.admits_iff transfer).mp hadmitted).1.1 federationId rfl

end Endpoint

end AgoraNet

end Icn
