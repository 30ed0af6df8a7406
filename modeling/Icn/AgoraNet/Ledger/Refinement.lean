import Icn.Foundation.Run.Simulation
import Icn.AgoraNet.Ledger.Conservation
import Icn.AgoraNet.Ledger.Transaction

/-!
# The two ledgers side by side

The ledger in memory and the ledger in PostgreSQL serve the same calls. They look
alike while the store answers every balance and every transfer as memory does.
One call keeps that exactly if the tables can carry it: `Carries` lists what an
accepted transfer has to bring, and `lockstep_iff_along` makes it a statement
about every sequence of calls.
-/

open Foundation
open Foundation.Run

namespace Icn

namespace AgoraNet

/-- The calls that both ledgers serve. -/
inductive StoreOp where
  | processTransfer (transfer : Transfer)
  | getBalance (entity : EntityRef)
  | findTransfer (txId : Uuid)
deriving DecidableEq, Repr

/-- What is seen of an answer: whether a transfer was accepted, a balance, a
transfer that was found. -/
inductive StoreAnswer where
  | accepted (accepted : Bool)
  | balance (result : Except LedgerError UInt64)
  | found (result : Except LedgerError (Option Transfer))

def isAccepted {ε : Type} : Option (Except ε Transfer) → Bool
  | some (.ok _) => true
  | _ => false

section

variable {κ : Type} [DecidableEq κ] [EntityKey κ]

def Ledger.serve (mode : Overflow) (ledger : Ledger κ) : StoreOp → StoreAnswer × Ledger κ
  | .processTransfer transfer =>
      let result := ledger.processTransfer mode transfer
      (.accepted (isAccepted result.1), result.2)
  | .getBalance entity => (.balance (.ok (ledger.getBalance entity)), ledger)
  | .findTransfer txId => (.found (.ok (ledger.findTransfer txId)), ledger)

def Database.serve (mode : Overflow) (db : Database) : StoreOp → StoreAnswer × Database
  | .processTransfer transfer =>
      let result := db.processTransfer mode transfer
      (.accepted (isAccepted result.1), result.2)
  | .getBalance entity => (.balance (db.getBalance entity), db)
  | .findTransfer txId => (.found (db.findTransfer txId), db)

/-- The store answers every balance and every transfer as memory does. An entity
whose id no column holds cannot be asked for. -/
structure Alike (p : Ledger κ × Database) : Prop where
  balance : ∀ entity : EntityRef, Storable entity.id →
    p.2.getBalance entity = .ok (p.1.getBalance entity)
  found : ∀ txId, p.2.findTransfer txId = .ok (p.1.findTransfer txId)

/-- The relation between the ledgers: alike, over well-formed tables. -/
structure Refines (p : Ledger κ × Database) : Prop where
  alike : Alike p
  wellFormed : p.2.WellFormed

/-- The sums of a call stay below the end of the word. -/
def SumsFit (p : Ledger κ × Database) : StoreOp → Prop
  | .processTransfer transfer => Ledger.Fits .stop p.1 transfer
  | _ => True

/-- What the tables have to be able to carry of a transfer that memory accepts. -/
structure Carried (p : Ledger κ × Database) (transfer : Transfer) : Prop where
  texts : Database.TextsStorable transfer
  fresh : p.1.findTransfer transfer.txId = none
  credit : transfer.toEntity ≠ transfer.fromEntity →
    (p.1.getBalance transfer.toEntity).toNat + transfer.amount.toNat < 2 ^ 63
  stats : p.2.StatsRoom transfer.federationId transfer.amount transfer.fee
  kept : Kept transfer

/-- The tables can carry a call. -/
def Carries (p : Ledger κ × Database) : StoreOp → Prop
  | .processTransfer transfer =>
      transfer.amount ≠ 0 → Ledger.Funded p.1 transfer → Carried p transfer
  | .getBalance entity => Storable entity.id
  | .findTransfer _ => True

end

theorem Database.getBalance_eq (db : Database) {entity : EntityRef} (h : Storable entity.id) :
    db.getBalance entity = .ok (asU64 (db.rowBalance entity)) := by
  rw [getBalance, selectBalance, bindText, if_pos h, rowBalance]
  cases db.balances.lookup (rowKey entity) <;> rfl

theorem Database.getBalance_of_not_storable (db : Database) {entity : EntityRef}
    (h : ¬ Storable entity.id) (balance : UInt64) : db.getBalance entity ≠ .ok balance := by
  rw [getBalance, selectBalance, bindText, if_neg h]
  intro hok
  cases hok

theorem Database.findTransfer_eq_none_iff (db : Database) (txId : Uuid) :
    db.findTransfer txId = .ok none ↔ txId ∉ db.transfers := by
  rw [findTransfer, ← Finmap.lookup_eq_none]
  cases db.transfers.lookup txId with
  | none => simp
  | some row => cases hread : row.toTransfer txId <;> simp [hread, Except.map]

def Database.empty : Database where
  entities := ∅
  balances := ∅
  transfers := ∅
  federationStats := ∅

namespace Refines

variable {κ : Type} [DecidableEq κ] [EntityKey κ]

theorem new_empty : Refines ((Ledger.new : Ledger κ), Database.empty) where
  alike := {
    balance entity hid := by
      rw [Database.getBalance_eq _ hid]
      rfl
    found _ := rfl }
  wellFormed := {
    mem_balances_iff key := iff_of_false Finmap.notMem_empty Finmap.notMem_empty
    isBalance key balance hlookup := by cases hlookup }

variable {p : Ledger κ × Database} (h : Refines p)

include h

/-- An account opened with the same balance on both sides. -/
theorem setBalance {entity : EntityRef} (federationId : String) {balance : UInt64}
    (hbalance : balance.toNat < 2 ^ 63) :
    Refines (p.1.setBalance entity balance,
      (p.2.ensured entity federationId).setRow entity balance.toNat) where
  alike := {
    balance other hid := by
      rw [Database.getBalance_eq _ hid]
      by_cases hother : other = entity
      · rw [hother, Database.rowBalance_setRow_self, Ledger.getBalance_setBalance_self,
          ← asI64_of_lt hbalance, asU64_asI64]
      · rw [Database.rowBalance_setRow_of_ne _ _ hother, h.wellFormed.rowBalance_ensured,
          Ledger.getBalance_setBalance_of_ne _ _ hother, ← Database.getBalance_eq _ hid]
        exact h.alike.balance other hid
    found txId := by
      have hfound := h.alike.found txId
      rwa [Database.findTransfer, ← Database.transfers_ensured p.2 entity federationId] at hfound }
  wellFormed := (h.wellFormed.ensured entity federationId).setRow
    (Database.mem_ensured_self p.2 entity federationId) (by omega) (by omega)

theorem rowBalance_eq {entity : EntityRef} (hid : Storable entity.id) :
    p.2.rowBalance entity = (p.1.getBalance entity).toNat := by
  have hrow := h.wellFormed.rowBalance_mem entity
  have hanswer := h.alike.balance entity hid
  rw [Database.getBalance_eq _ hid] at hanswer
  rw [← Except.ok.inj hanswer, toNat_asU64 hrow.1 (by omega)]
  omega

theorem postable_iff (transfer : Transfer) :
    p.2.Postable transfer ↔
      Database.TextsStorable transfer ∧ transfer.amount ≠ 0 ∧ Ledger.Funded p.1 transfer ∧
        p.1.findTransfer transfer.txId = none ∧
          (transfer.toEntity ≠ transfer.fromEntity →
            (p.1.getBalance transfer.toEntity).toNat + transfer.amount.toNat < 2 ^ 63) ∧
              p.2.StatsRoom transfer.federationId transfer.amount transfer.fee := by
  have hfresh : transfer.txId ∉ p.2.transfers ↔ p.1.findTransfer transfer.txId = none := by
    rw [← Database.findTransfer_eq_none_iff, h.alike.found, Except.ok.injEq]
  constructor
  · rintro ⟨htexts, hfunds, hnew, hamount, hcredit, hstats⟩
    have hfrom := h.rowBalance_eq htexts.2.1
    have hto := h.rowBalance_eq htexts.2.2.1
    refine ⟨htexts, hamount, ?_, hfresh.mp hnew, ?_, hstats⟩
    · unfold Ledger.Funded
      omega
    · intro hne
      have := hcredit hne
      omega
  · rintro ⟨htexts, hamount, hfunds, hnew, hcredit, hstats⟩
    have hfrom := h.rowBalance_eq htexts.2.1
    have hto := h.rowBalance_eq htexts.2.2.1
    refine ⟨htexts, ?_, hfresh.mpr hnew, hamount, ?_, hstats⟩
    · unfold Ledger.Funded at hfunds
      omega
    · intro hne
      have := hcredit hne
      omega

/-- After an accepted transfer both hold the same balances. -/
theorem balance_posted {transfer : Transfer} (hpostable : p.2.Postable transfer)
    (hfunds : Ledger.Funded p.1 transfer) (hcredit : Ledger.CreditFits p.1 transfer)
    (entity : EntityRef) (hid : Storable entity.id) :
    (p.2.posted transfer).getBalance entity =
      .ok ((Ledger.settled p.1 transfer).getBalance entity) := by
  have hposted := h.wellFormed.posted hpostable.funded hpostable.credit
  have hrow := hposted.rowBalance_mem entity
  have hbalance := h.wellFormed.rowBalance_posted hpostable.funded entity
  have hsettled := hfunds.toNat_getBalance_settled hcredit entity
  rw [h.rowBalance_eq hid] at hbalance
  rw [Database.getBalance_eq _ hid]
  refine congrArg Except.ok (UInt64.toNat_inj.mp ?_)
  rw [toNat_asU64 hrow.1 (by omega)]
  omega

/-- After an accepted transfer both find the same transfers exactly if its row keeps
all of it. -/
theorem found_posted_iff {transfer : Transfer}
    (hfresh : p.1.findTransfer transfer.txId = none) :
    (∀ txId, (p.2.posted transfer).findTransfer txId =
      .ok ((Ledger.settled p.1 transfer).findTransfer txId)) ↔ Kept transfer := by
  have hrow := TransferRow.toTransfer_ofTransfer_iff transfer
  have hsettled : ∀ txId, (Ledger.settled p.1 transfer).findTransfer txId =
      (p.1.findTransfer txId).or (if transfer.txId = txId then some transfer else none) := by
    intro txId
    rw [Ledger.findTransfer, Ledger.findTransfer, Ledger.settled, Ledger.recorded,
      List.find?_append, List.find?_singleton]
    simp [Ledger.credited, Ledger.debited, Ledger.setBalance]
  rw [← hrow]
  constructor
  · intro hall
    have hread := hall transfer.txId
    rw [Database.findTransfer_posted, if_pos rfl, hsettled, hfresh, if_pos rfl] at hread
    cases htransfer : (TransferRow.ofTransfer transfer).toTransfer transfer.txId with
    | error e =>
        rw [htransfer] at hread
        cases hread
    | ok found =>
        rw [htransfer] at hread
        exact congrArg Except.ok (Option.some.inj (Except.ok.inj hread))
  · intro hread txId
    rw [Database.findTransfer_posted, hsettled]
    by_cases hid : txId = transfer.txId
    · rw [hid, if_pos rfl, hread, hfresh, if_pos rfl]
      rfl
    · rw [if_neg hid, if_neg (Ne.symm hid), Option.or_none]
      exact h.alike.found txId

theorem processTransfer_of_refused (mode : Overflow) {transfer : Transfer}
    (hsum : Ledger.SumFits transfer)
    (hrefuse : ¬ (transfer.amount ≠ 0 ∧ Ledger.Funded p.1 transfer)) :
    (∃ e, p.1.processTransfer mode transfer = (some (.error e), p.1)) ∧
      ∃ e, p.2.processTransfer mode transfer = (some (.error e), p.2) := by
  constructor
  · by_cases hamount : transfer.amount = 0
    · exact ⟨_, Ledger.processTransfer_of_amount_eq_zero mode p.1 hamount⟩
    · exact ⟨_, Ledger.processTransfer_of_not_funded mode hamount hsum
        fun hfunds => hrefuse ⟨hamount, hfunds⟩⟩
  · apply h.wellFormed.processTransfer_of_not_postable mode _ hsum
    intro hpostable
    obtain ⟨-, hamount, hfunds, -⟩ := (h.postable_iff transfer).mp hpostable
    exact hrefuse ⟨hamount, hfunds⟩

/-- A transfer that both accept is carried exactly if both stay alike. -/
theorem alike_posted_iff {transfer : Transfer} (hpostable : p.2.Postable transfer)
    (hfunds : Ledger.Funded p.1 transfer) (hcredit : Ledger.CreditFits p.1 transfer) :
    Alike (Ledger.settled p.1 transfer, p.2.posted transfer) ↔ Carried p transfer := by
  obtain ⟨htexts, -, -, hfresh, hroom, hstats⟩ := (h.postable_iff transfer).mp hpostable
  constructor
  · intro halike
    exact ⟨htexts, hfresh, hroom, hstats, (h.found_posted_iff hfresh).mp halike.found⟩
  · intro hcarried
    exact ⟨h.balance_posted hpostable hfunds hcredit,
      (h.found_posted_iff hfresh).mpr hcarried.kept⟩

/-- One transfer on both sides: both answer alike and stay alike exactly if the
tables can carry it. -/
theorem processTransfer_iff (mode : Overflow) (transfer : Transfer)
    (hfit : Ledger.Fits .stop p.1 transfer) :
    (isAccepted (p.1.processTransfer mode transfer).1 =
        isAccepted (p.2.processTransfer mode transfer).1 ∧
      Alike ((p.1.processTransfer mode transfer).2, (p.2.processTransfer mode transfer).2) ↔
        Carries p (.processTransfer transfer)) ∧
      (Carries p (.processTransfer transfer) →
        (p.2.processTransfer mode transfer).2.WellFormed) := by
  have hsum : Ledger.SumFits transfer := by
    rcases hfit with hzero | ⟨hsum, -⟩
    · have := transfer.fee.toNat_lt
      rw [Ledger.SumFits, hzero, UInt64.toNat_zero]
      omega
    · exact hsum
  by_cases haccept : transfer.amount ≠ 0 ∧ Ledger.Funded p.1 transfer
  · obtain ⟨hamount, hfunds⟩ := haccept
    obtain ⟨hcredit, hstats⟩ :=
      ((hfit.resolve_left hamount).2).resolve_left (not_not.mpr hfunds)
    have hcarries : Carries p (.processTransfer transfer) ↔ Carried p transfer :=
      ⟨fun hcarried => hcarried hamount hfunds, fun hcarried _ _ => hcarried⟩
    rw [Ledger.processTransfer_eq_settled mode hamount hfunds hcredit hstats, hcarries]
    by_cases hpostable : p.2.Postable transfer
    · rw [h.wellFormed.processTransfer_of_postable mode hpostable hsum,
        ← h.alike_posted_iff hpostable hfunds hcredit]
      exact ⟨and_iff_right rfl, fun _ => h.wellFormed.posted hpostable.funded hpostable.credit⟩
    · obtain ⟨e, hrefused⟩ := h.wellFormed.processTransfer_of_not_postable mode hpostable hsum
      have hnot : ¬ Carried p transfer := by
        rintro ⟨htexts, hfresh, hroom, hvolume, -⟩
        exact hpostable ((h.postable_iff transfer).mpr
          ⟨htexts, hamount, hfunds, hfresh, hroom, hvolume⟩)
      rw [hrefused]
      refine ⟨iff_of_false ?_ hnot, fun hcarried => absurd hcarried hnot⟩
      rintro ⟨hanswer, -⟩
      cases hanswer
  · obtain ⟨⟨e, hmemory⟩, e', hrefused⟩ := h.processTransfer_of_refused mode hsum haccept
    rw [hrefused, hmemory]
    refine ⟨iff_of_true ⟨rfl, h.alike⟩ ?_, fun _ => h.wellFormed⟩
    intro hamount hfunds
    exact absurd ⟨hamount, hfunds⟩ haccept

theorem serve_iff (mode : Overflow) (op : StoreOp) (hfit : SumsFit p op) :
    (p.1.serve mode op).1 = (p.2.serve mode op).1 ∧
        Alike (pair (Ledger.serve mode) (Database.serve mode) p op) ↔ Carries p op := by
  cases op with
  | processTransfer transfer =>
      rw [← (h.processTransfer_iff mode transfer hfit).1]
      exact and_congr_left' ⟨StoreAnswer.accepted.inj, congrArg StoreAnswer.accepted⟩
  | getBalance entity =>
      constructor
      · rintro ⟨hanswer, -⟩
        by_contra hid
        exact Database.getBalance_of_not_storable p.2 hid _ (StoreAnswer.balance.inj hanswer).symm
      · intro hid
        exact ⟨congrArg StoreAnswer.balance (h.alike.balance entity hid).symm, h.alike⟩
  | findTransfer txId =>
      exact iff_of_true ⟨congrArg StoreAnswer.found (h.alike.found txId).symm, h.alike⟩ trivial

theorem refines_of_carries (mode : Overflow) (op : StoreOp) (hfit : SumsFit p op)
    (hcarries : Carries p op) :
    Refines (pair (Ledger.serve mode) (Database.serve mode) p op) where
  alike := ((h.serve_iff mode op hfit).mpr hcarries).2
  wellFormed := by
    cases op with
    | processTransfer transfer => exact (h.processTransfer_iff mode transfer hfit).2 hcarries
    | getBalance entity => exact h.wellFormed
    | findTransfer txId => exact h.wellFormed

end Refines

variable {κ : Type} [DecidableEq κ] [EntityKey κ]

/-- From ledgers that are alike, and while the sums fit the word, both ledgers give the
same answers to a sequence of calls and are alike after each of them exactly if
the tables can carry every call. -/
theorem serve_alike_iff (mode : Overflow) {ledger : Ledger κ} {db : Database}
    (h : Refines (ledger, db)) (ops : List StoreOp)
    (hsums : Along (pair (Ledger.serve mode) (Database.serve mode)) SumsFit (ledger, db) ops) :
    (∀ before, before <+: ops →
        trace (Ledger.serve mode) ledger before = trace (Database.serve mode) db before ∧
          Alike (run (pair (Ledger.serve mode) (Database.serve mode)) (ledger, db) before)) ↔
      Along (pair (Ledger.serve mode) (Database.serve mode)) Carries (ledger, db) ops :=
  lockstep_iff_along (fun _ hp => hp.alike) (fun _ op hp => hp.serve_iff mode op)
    (fun _ op hp => hp.refines_of_carries mode op) h hsums

def alice : EntityRef := ⟨.user, "alice"⟩

def bakery : EntityRef := ⟨.cooperative, "bakery"⟩

def guild : EntityRef := ⟨.organization, "guild"⟩

def aliceLedger : Ledger (String × EntityType) := Ledger.new.setBalance alice 100

def aliceDatabase : Database :=
  (Database.empty.ensured alice "federation1").setRow alice (100 : UInt64).toNat

theorem refines_alice : Refines (aliceLedger, aliceDatabase) :=
  Refines.new_empty.setBalance "federation1" (by decide)

def payment (toEntity : EntityRef) : Transfer where
  txId := "00000000-0000-4000-8000-000000000001"
  federationId := "federation1"
  fromEntity := alice
  toEntity
  amount := 30
  fee := 1
  initiator := "did:key:alice"
  timestamp := seconds 1700000000
  memo := some "bread"
  metadata := none

theorem sumsFit_payment {toEntity : EntityRef} (h : aliceLedger.getBalance toEntity = 0) :
    SumsFit (aliceLedger, aliceDatabase) (.processTransfer (payment toEntity)) := by
  refine .inr ⟨?_, .inr ⟨?_, ?_⟩⟩
  · change (30 : UInt64).toNat + (1 : UInt64).toNat < 2 ^ 64
    decide
  · intro _
    change (aliceLedger.getBalance toEntity).toNat + (30 : UInt64).toNat < 2 ^ 64
    rw [h]
    decide
  · intro stats hstats
    cases hstats

theorem payment_alike :
    trace (Ledger.serve .stop) aliceLedger
          [.processTransfer (payment bakery), .findTransfer (payment bakery).txId] =
        trace (Database.serve .stop) aliceDatabase
          [.processTransfer (payment bakery), .findTransfer (payment bakery).txId] ∧
      Alike (run (pair (Ledger.serve .stop) (Database.serve .stop)) (aliceLedger, aliceDatabase)
        [.processTransfer (payment bakery), .findTransfer (payment bakery).txId]) := by
  refine (serve_alike_iff .stop refines_alice
    [.processTransfer (payment bakery), .findTransfer (payment bakery).txId]
      ⟨sumsFit_payment (by decide), trivial, trivial⟩).mpr ⟨?_, trivial, trivial⟩ _
        List.prefix_rfl
  intro _ _
  refine ⟨by decide, rfl, fun _ => by decide, ?_, ⟨by decide, by decide, by decide, rfl⟩⟩
  intro row hrow
  cases hrow

/-- The store accepts a payment to an organization and cannot read it back. -/
theorem payment_to_organization_not_alike :
    Refines (aliceLedger, aliceDatabase) ∧
      SumsFit (aliceLedger, aliceDatabase) (.processTransfer (payment guild)) ∧
        ¬ ((aliceLedger.serve .stop (.processTransfer (payment guild))).1 =
            (aliceDatabase.serve .stop (.processTransfer (payment guild))).1 ∧
          Alike (pair (Ledger.serve .stop) (Database.serve .stop) (aliceLedger, aliceDatabase)
            (.processTransfer (payment guild)))) := by
  have hsums := sumsFit_payment (show aliceLedger.getBalance guild = 0 by decide)
  refine ⟨refines_alice, hsums, ?_⟩
  rw [refines_alice.serve_iff .stop _ hsums]
  intro hcarries
  have hcarried := hcarries (by decide) (by decide)
  exact absurd hcarried.kept.toKind (by decide)

end AgoraNet

end Icn
