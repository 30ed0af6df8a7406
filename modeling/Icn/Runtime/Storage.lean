import Icn.Foundation.Codec.Format
import Icn.Foundation.Run.Simulation
import Icn.Mesh.Verification
import Icn.Runtime.Proposals

/-!
# The storages of the runtime

The runtime is written against `RuntimeStorage` and runs on two storages. One is
in memory, with a map for each kind of value. The other is an embedded database:
one tree for all of them, with the kind in front of the key and proposals and
receipts as their bincode bytes.

They name receipts differently. The database returns the identifier of a receipt
as its handle, the storage in memory puts `mock-receipt-` before it, and each
loads a receipt by the handle it has given out. `Represents` relates the two
states, and `alike_trace` shows that a caller that passes on the handles it was
given sees no other difference than the texts of errors, except where it anchors:
the storage in memory takes note of the identifier, the database refuses.
-/

open Foundation
open Foundation.Codec
open Foundation.Run

namespace Icn

namespace Runtime

open Mesh

structure RuntimeStorage (σ : Type) where
  loadProposal : σ → String → Except String Proposal
  updateProposal : σ → Proposal → Except String Unit × σ
  loadWasm : σ → String → Except String (List UInt8)
  storeWasm : σ → String → List UInt8 → Except String Unit × σ
  storeReceipt : σ → RuntimeExecutionReceipt → Except String String × σ
  loadReceipt : σ → String → Except String RuntimeExecutionReceipt
  anchorToDag : σ → String → Except String String × σ

structure MemState extends MemStorage where
  receipts : HashMap String RuntimeExecutionReceipt
  anchoredCids : List String

namespace MemState

def new : MemState where
  proposals := ∅
  wasmModules := ∅
  keyed h := by cases h
  receipts := ∅
  anchoredCids := []

def receiptHandle (id : String) : String := "mock-receipt-" ++ id

def storeWasm (state : MemState) (cid : String) (bytes : List UInt8) : MemState :=
  { state with wasmModules := state.wasmModules.insert cid bytes }

def storeReceipt (state : MemState) (receipt : RuntimeExecutionReceipt) : MemState :=
  { state with receipts := state.receipts.insert (receiptHandle receipt.id) receipt }

def loadReceipt (state : MemState) (receiptId : String) :
    Except String RuntimeExecutionReceipt :=
  match state.receipts.lookup receiptId with
  | some receipt => .ok receipt
  | none => .error s!"Receipt {receiptId} not found"

end MemState

def memStorage : RuntimeStorage MemState where
  loadProposal state := state.toMemStorage.loadProposal
  updateProposal state proposal :=
    (.ok (), { state with toMemStorage := state.toMemStorage.updateProposal proposal })
  loadWasm state := state.toMemStorage.loadWasm
  storeWasm state cid bytes := (.ok (), state.storeWasm cid bytes)
  storeReceipt state receipt :=
    (.ok (MemState.receiptHandle receipt.id), state.storeReceipt receipt)
  loadReceipt := MemState.loadReceipt
  anchorToDag state cid :=
    (.ok ("mock-anchor-" ++ cid),
      { state with anchoredCids := state.anchoredCids ++ ["mock-anchor-" ++ cid] })

def stateFormat : Format ProposalState :=
  Bincode.variantFormat [.created, .voting, .approved, .rejected, .executed] (by decide)
    (by rintro (_ | _) <;> decide)

def quorumStatusFormat : Format QuorumStatus :=
  Bincode.variantFormat
    [.pending, .majorityReached, .thresholdReached, .weightedReached, .failed] (by decide)
    (by rintro (_ | _) <;> decide)

open Bincode in
def proposalFormat : Format Proposal :=
  (textFormat.pair (textFormat.pair (textFormat.pair
    (stateFormat.pair quorumStatusFormat)))).record
    (fun proposal => (proposal.id, proposal.wasmCid, proposal.cclCid, proposal.state,
      proposal.quorumStatus))
    (fun (id, wasmCid, cclCid, state, quorumStatus) => ⟨id, wasmCid, cclCid, state, quorumStatus⟩)
    (fun _ => rfl) (fun _ => rfl)

open Bincode in
def metricsFormat : Format RuntimeExecutionMetrics :=
  (wordFormat.pair (wordFormat.pair (optionFormat wordFormat))).record
    (fun metrics => (metrics.hostCalls, metrics.ioBytes, metrics.manaCost))
    (fun (hostCalls, ioBytes, manaCost) => ⟨hostCalls, ioBytes, manaCost⟩)
    (fun _ => rfl) (fun _ => rfl)

open Bincode in
def receiptFormat : Format RuntimeExecutionReceipt :=
  (textFormat.pair (textFormat.pair (textFormat.pair (textFormat.pair (textFormat.pair
    (metricsFormat.pair ((listFormat textFormat).pair
      ((listFormat (textFormat.pair wordFormat)).pair (wordFormat.pair
        ((optionFormat wordFormat).pair ((optionFormat textFormat).pair
          (optionFormat (listFormat byteFormat))))))))))))).record
    (fun receipt => (receipt.id, receipt.issuer, receipt.proposalId, receipt.wasmCid,
      receipt.cclCid, receipt.metrics, receipt.anchoredCids, receipt.resourceUsage,
      receipt.timestamp, receipt.dagEpoch, receipt.receiptCid, receipt.signature))
    (fun (id, issuer, proposalId, wasmCid, cclCid, metrics, anchoredCids, resourceUsage,
        timestamp, dagEpoch, receiptCid, signature) =>
      ⟨id, issuer, proposalId, wasmCid, cclCid, metrics, anchoredCids, resourceUsage,
        timestamp, dagEpoch, receiptCid, signature⟩)
    (fun _ => rfl) (fun _ => rfl)

abbrev SledDb := HashMap (List UInt8) (List UInt8)

namespace SledStorage

def wasmKey (cid : String) : List UInt8 := utf8 ("wasm:" ++ cid)

def receiptKey (cid : String) : List UInt8 := utf8 ("receipt:" ++ cid)

def proposalKey (id : String) : List UInt8 := utf8 ("proposal:" ++ id)

def loadWasm (db : SledDb) (cid : String) : Except String (List UInt8) :=
  match db.lookup (wasmKey cid) with
  | some bytes => .ok bytes
  | none => .error s!"WASM not found for CID {cid} (key: wasm:{cid})"

def loadReceipt (db : SledDb) (receiptId : String) : Except String RuntimeExecutionReceipt :=
  match db.lookup (receiptKey receiptId) with
  | none => .error s!"Receipt not found for ID {receiptId} (key: receipt:{receiptId})"
  | some bytes =>
      match receiptFormat.decode bytes with
      | some receipt => .ok receipt
      | none => .error "Failed to deserialize receipt"

def loadProposal (db : SledDb) (id : String) : Except String Proposal :=
  match db.lookup (proposalKey id) with
  | none => .error s!"Proposal {id} not found (key: proposal:{id})"
  | some bytes =>
      match proposalFormat.decode bytes with
      | some proposal => .ok proposal
      | none => .error "Failed to deserialize proposal"

end SledStorage

open SledStorage in
def sledStorage : RuntimeStorage SledDb where
  loadProposal := loadProposal
  updateProposal db proposal :=
    (.ok (), db.insert (proposalKey proposal.id) (proposalFormat.write proposal))
  loadWasm := loadWasm
  storeWasm db cid bytes := (.ok (), db.insert (wasmKey cid) bytes)
  storeReceipt db receipt :=
    (.ok receipt.id, db.insert (receiptKey receipt.id) (receiptFormat.write receipt))
  loadReceipt := loadReceipt
  anchorToDag db _ := (.error "SledStorage does not support direct DAG anchoring", db)

namespace SledStorage

theorem kind_append_injective (kind : String) : Function.Injective fun id => utf8 (kind ++ id) := by
  intro id id' h
  have htext := congrArg String.toList (utf8_injective h)
  rw [String.toList_append, String.toList_append] at htext
  exact String.toList_injective (List.append_cancel_left htext)

theorem wasmKey_injective : Function.Injective wasmKey := kind_append_injective "wasm:"

theorem receiptKey_injective : Function.Injective receiptKey := kind_append_injective "receipt:"

theorem proposalKey_injective : Function.Injective proposalKey :=
  kind_append_injective "proposal:"

theorem kind_append_ne {kind kind' : String} (h : kind.toList.head? ≠ kind'.toList.head?)
    (hkind : kind.toList ≠ []) (hkind' : kind'.toList ≠ []) (id id' : String) :
    utf8 (kind ++ id) ≠ utf8 (kind' ++ id') := by
  intro heq
  have htext := congrArg (List.head? ∘ String.toList) (utf8_injective heq)
  rw [Function.comp_apply, Function.comp_apply, String.toList_append, String.toList_append,
    List.head?_append_of_ne_nil _ hkind, List.head?_append_of_ne_nil _ hkind'] at htext
  exact h htext

theorem wasmKey_ne_receiptKey (cid id : String) : wasmKey cid ≠ receiptKey id :=
  kind_append_ne (by decide) (by decide) (by decide) cid id

theorem wasmKey_ne_proposalKey (cid id : String) : wasmKey cid ≠ proposalKey id :=
  kind_append_ne (by decide) (by decide) (by decide) cid id

theorem receiptKey_ne_proposalKey (cid id : String) : receiptKey cid ≠ proposalKey id :=
  kind_append_ne (by decide) (by decide) (by decide) cid id

end SledStorage

/-- **The database loads what was written and nothing else.** Whatever the bytes of its
tree are, a receipt or a proposal comes out of them exactly if they begin with the
bytes that are written for it. -/
theorem SledStorage.load_eq_ok_iff (db : SledDb) (id : String) :
    (∀ receipt, SledStorage.loadReceipt db id = .ok receipt ↔ receiptFormat.Fits receipt ∧
        ∃ rest, db.lookup (receiptKey id) = some (receiptFormat.write receipt ++ rest)) ∧
      ∀ proposal, SledStorage.loadProposal db id = .ok proposal ↔ proposalFormat.Fits proposal ∧
        ∃ rest, db.lookup (proposalKey id) = some (proposalFormat.write proposal ++ rest) := by
  constructor
  · intro receipt
    rw [← receiptFormat.lookup_decode_iff, loadReceipt]
    cases db.lookup (receiptKey id) with
    | none => simp
    | some bytes => cases hread : receiptFormat.decode bytes <;> simp [hread]
  · intro proposal
    rw [← proposalFormat.lookup_decode_iff, loadProposal]
    cases db.lookup (proposalKey id) with
    | none => simp
    | some bytes => cases hread : proposalFormat.decode bytes <;> simp [hread]

/-- A call of the storage interface. A receipt is asked for by its identifier. -/
inductive StorageCall where
  | loadProposal (id : String)
  | updateProposal (proposal : Proposal)
  | loadWasm (cid : String)
  | storeWasm (cid : String) (bytes : List UInt8)
  | storeReceipt (receipt : RuntimeExecutionReceipt)
  | loadReceipt (handle : String)
  | anchorToDag (cid : String)
deriving DecidableEq, Repr

inductive StorageReply where
  | proposal (result : Except String Proposal)
  | wasm (result : Except String (List UInt8))
  | stored (result : Except String Unit)
  | handle (result : Except String String)
  | receipt (result : Except String RuntimeExecutionReceipt)
  | anchored (result : Except String String)

def RuntimeStorage.call {σ : Type} (storage : RuntimeStorage σ) (s : σ) :
    StorageCall → StorageReply × σ
  | .loadProposal id => (.proposal (storage.loadProposal s id), s)
  | .updateProposal proposal =>
      (.stored (storage.updateProposal s proposal).1, (storage.updateProposal s proposal).2)
  | .loadWasm cid => (.wasm (storage.loadWasm s cid), s)
  | .storeWasm cid bytes =>
      (.stored (storage.storeWasm s cid bytes).1, (storage.storeWasm s cid bytes).2)
  | .storeReceipt receipt =>
      (.handle (storage.storeReceipt s receipt).1, (storage.storeReceipt s receipt).2)
  | .loadReceipt handle => (.receipt (storage.loadReceipt s handle), s)
  | .anchorToDag cid => (.anchored (storage.anchorToDag s cid).1, (storage.anchorToDag s cid).2)

def StorageCall.inMemory : StorageCall → StorageCall
  | .loadReceipt handle => .loadReceipt (MemState.receiptHandle handle)
  | call => call

/-- The texts and the lists of what is stored have lengths that are words. -/
def StorageCall.Fits : StorageCall → Prop
  | .updateProposal proposal => proposalFormat.Fits proposal
  | .storeReceipt receipt => receiptFormat.Fits receipt
  | _ => True

/-- A reply of the storage in memory and one of the database that a caller takes for
the same: values are equal, and a handle names the same receipt. No replies to
anchoring are. -/
def StorageReply.Alike : StorageReply → StorageReply → Prop
  | .proposal r, .proposal r' => r.toOption = r'.toOption
  | .wasm r, .wasm r' => r.toOption = r'.toOption
  | .stored r, .stored r' => r = r'
  | .handle r, .handle r' => r = r'.map MemState.receiptHandle
  | .receipt r, .receipt r' => r.toOption = r'.toOption
  | _, _ => False

/-- The storage in memory has anchored an identifier that the database has refused. -/
def StorageReply.AnchoredInMemory (cid : String) (reply reply' : StorageReply) : Prop :=
  reply = .anchored (.ok ("mock-anchor-" ++ cid)) ∧
    reply' = .anchored (.error "SledStorage does not support direct DAG anchoring")

def StorageCall.Answered (call : StorageCall) (reply reply' : StorageReply) : Prop :=
  match call with
  | .anchorToDag cid => reply.AnchoredInMemory cid reply'
  | _ => reply.Alike reply'

/-- The tree holds what the maps in memory hold, each kind under its own keys. -/
structure Represents (state : MemState) (db : SledDb) : Prop where
  wasm : ∀ cid, db.lookup (SledStorage.wasmKey cid) = state.wasmModules.lookup cid
  proposals : ∀ id, (db.lookup (SledStorage.proposalKey id)).map proposalFormat.decode =
    (state.proposals.lookup id).map some
  receipts : ∀ id, (db.lookup (SledStorage.receiptKey id)).map receiptFormat.decode =
    (state.receipts.lookup (MemState.receiptHandle id)).map some

theorem fits_proposalFormat_iff (proposal : Proposal) :
    proposalFormat.Fits proposal ↔ (utf8 proposal.id).length < 2 ^ 64 ∧
      (utf8 proposal.wasmCid).length < 2 ^ 64 ∧ (utf8 proposal.cclCid).length < 2 ^ 64 := by
  have hstate : stateFormat.Fits proposal.state := Bincode.fits_variantFormat (by decide) _
  have hquorum : quorumStatusFormat.Fits proposal.quorumStatus :=
    Bincode.fits_variantFormat (by decide) _
  rw [← Bincode.fits_textFormat_iff, ← Bincode.fits_textFormat_iff, ← Bincode.fits_textFormat_iff]
  exact ⟨fun h => ⟨h.1, h.2.1, h.2.2.1⟩, fun h => ⟨h.1, h.2.1, h.2.2, hstate, hquorum⟩⟩

theorem fits_metricsFormat (metrics : RuntimeExecutionMetrics) : metricsFormat.Fits metrics :=
  ⟨Bincode.fits_wordFormat _, Bincode.fits_wordFormat _, fun _ _ => Bincode.fits_wordFormat _⟩

open Bincode in
theorem fits_receiptFormat_iff (receipt : RuntimeExecutionReceipt) :
    receiptFormat.Fits receipt ↔
      (∀ s ∈ [receipt.id, receipt.issuer, receipt.proposalId, receipt.wasmCid, receipt.cclCid] ++
          receipt.anchoredCids ++ receipt.resourceUsage.map Prod.fst ++ receipt.receiptCid.toList,
        (utf8 s).length < 2 ^ 64) ∧
      receipt.anchoredCids.length < 2 ^ 64 ∧ receipt.resourceUsage.length < 2 ^ 64 ∧
        ∀ bytes ∈ receipt.signature.toList, bytes.length < 2 ^ 64 := by
  simp only [← fits_textFormat_iff, List.forall_mem_append, List.forall_mem_cons,
    List.forall_mem_map, Option.mem_toList]
  constructor
  · rintro ⟨hid, hissuer, hproposal, hwasm, hccl, -, hanchored, husage, -, -, hcid, hsignature⟩
    refine ⟨⟨⟨⟨⟨hid, hissuer, hproposal, hwasm, hccl, by simp⟩, hanchored.2⟩, ?_⟩, hcid⟩,
      hanchored.1, husage.1, fun bytes hbytes => (hsignature bytes hbytes).1⟩
    exact fun p hp => (husage.2 p hp).1
  · rintro ⟨⟨⟨⟨⟨hid, hissuer, hproposal, hwasm, hccl, -⟩, hanchored⟩, husage⟩, hcid⟩,
      hanchoredLength, husageLength, hsignature⟩
    refine ⟨hid, hissuer, hproposal, hwasm, hccl, fits_metricsFormat _,
      ⟨hanchoredLength, hanchored⟩, ⟨husageLength, ?_⟩, fits_wordFormat _,
      fun _ _ => fits_wordFormat _, hcid, fun bytes hbytes => ⟨hsignature bytes hbytes, ?_⟩⟩
    · exact fun p hp => ⟨husage p hp, fits_wordFormat _⟩
    · exact fun _ _ => trivial

theorem MemState.receiptHandle_injective : Function.Injective receiptHandle := by
  intro id id' h
  exact SledStorage.kind_append_injective "mock-receipt-" (congrArg utf8 h)

namespace Represents

open SledStorage

variable {state : MemState} {db : SledDb} (h : Represents state db)

include h

theorem updateProposal {proposal : Proposal} (hfits : proposalFormat.Fits proposal) :
    Represents { state with toMemStorage := state.toMemStorage.updateProposal proposal }
      (db.insert (proposalKey proposal.id) (proposalFormat.write proposal)) where
  wasm cid := by
    rw [Finmap.lookup_insert_of_ne _ (wasmKey_ne_proposalKey cid proposal.id)]
    exact h.wasm cid
  proposals id := by
    rw [MemStorage.updateProposal, HashMap.lookup_insert_eq_ite, HashMap.lookup_insert_eq_ite]
    by_cases hid : id = proposal.id
    · have hread := proposalFormat.decode_write hfits []
      rw [List.append_nil] at hread
      rw [if_pos hid, if_pos (congrArg proposalKey hid), Option.map_some, Option.map_some, hread]
    · rw [if_neg hid, if_neg (proposalKey_injective.ne hid)]
      exact h.proposals id
  receipts id := by
    rw [Finmap.lookup_insert_of_ne _ (receiptKey_ne_proposalKey id proposal.id)]
    exact h.receipts id

theorem storeWasm (cid : String) (bytes : List UInt8) :
    Represents (state.storeWasm cid bytes) (db.insert (wasmKey cid) bytes) where
  wasm other := by
    rw [MemState.storeWasm, HashMap.lookup_insert_eq_ite, HashMap.lookup_insert_eq_ite]
    by_cases hother : other = cid
    · rw [if_pos hother, if_pos (congrArg wasmKey hother)]
    · rw [if_neg hother, if_neg (wasmKey_injective.ne hother)]
      exact h.wasm other
  proposals id := by
    rw [Finmap.lookup_insert_of_ne _ (wasmKey_ne_proposalKey cid id).symm]
    exact h.proposals id
  receipts id := by
    rw [Finmap.lookup_insert_of_ne _ (wasmKey_ne_receiptKey cid id).symm]
    exact h.receipts id

theorem storeReceipt {receipt : RuntimeExecutionReceipt} (hfits : receiptFormat.Fits receipt) :
    Represents (state.storeReceipt receipt)
      (db.insert (receiptKey receipt.id) (receiptFormat.write receipt)) where
  wasm cid := by
    rw [Finmap.lookup_insert_of_ne _ (wasmKey_ne_receiptKey cid receipt.id)]
    exact h.wasm cid
  proposals id := by
    rw [Finmap.lookup_insert_of_ne _ (receiptKey_ne_proposalKey receipt.id id).symm]
    exact h.proposals id
  receipts id := by
    rw [MemState.storeReceipt, HashMap.lookup_insert_eq_ite, HashMap.lookup_insert_eq_ite]
    by_cases hid : id = receipt.id
    · have hread := receiptFormat.decode_write hfits []
      rw [List.append_nil] at hread
      rw [if_pos (congrArg receiptKey hid), if_pos (congrArg MemState.receiptHandle hid),
        Option.map_some, Option.map_some, hread]
    · rw [if_neg (receiptKey_injective.ne hid),
        if_neg (MemState.receiptHandle_injective.ne hid)]
      exact h.receipts id

theorem loadProposal_toOption (id : String) :
    (state.toMemStorage.loadProposal id).toOption = (SledStorage.loadProposal db id).toOption := by
  have hlookup := h.proposals id
  unfold MemStorage.loadProposal SledStorage.loadProposal
  cases hmem : state.proposals.lookup id with
  | none =>
      rw [hmem, Option.map_none, Option.map_eq_none_iff] at hlookup
      rw [hlookup]
      rfl
  | some proposal =>
      rw [hmem, Option.map_some, Option.map_eq_some_iff] at hlookup
      obtain ⟨bytes, hbytes, hread⟩ := hlookup
      simp only [hbytes, hread]

theorem loadReceipt_toOption (id : String) :
    (state.loadReceipt (MemState.receiptHandle id)).toOption =
      (SledStorage.loadReceipt db id).toOption := by
  have hlookup := h.receipts id
  unfold MemState.loadReceipt SledStorage.loadReceipt
  cases hmem : state.receipts.lookup (MemState.receiptHandle id) with
  | none =>
      rw [hmem, Option.map_none, Option.map_eq_none_iff] at hlookup
      rw [hlookup]
      rfl
  | some receipt =>
      rw [hmem, Option.map_some, Option.map_eq_some_iff] at hlookup
      obtain ⟨bytes, hbytes, hread⟩ := hlookup
      simp only [hbytes, hread]

theorem loadWasm_toOption (cid : String) :
    (state.toMemStorage.loadWasm cid).toOption = (SledStorage.loadWasm db cid).toOption := by
  unfold MemStorage.loadWasm SledStorage.loadWasm
  rw [h.wasm]
  cases state.wasmModules.lookup cid <;> rfl

theorem call {call : StorageCall} (hfits : call.Fits) :
    call.Answered (memStorage.call state call.inMemory).1 (sledStorage.call db call).1 ∧
      Represents (memStorage.call state call.inMemory).2 (sledStorage.call db call).2 := by
  cases call with
  | loadProposal id => exact ⟨h.loadProposal_toOption id, h⟩
  | updateProposal proposal => exact ⟨rfl, h.updateProposal hfits⟩
  | loadWasm cid => exact ⟨h.loadWasm_toOption cid, h⟩
  | storeWasm cid bytes => exact ⟨rfl, h.storeWasm cid bytes⟩
  | storeReceipt receipt => exact ⟨rfl, h.storeReceipt hfits⟩
  | loadReceipt handle => exact ⟨h.loadReceipt_toOption handle, h⟩
  | anchorToDag cid => exact ⟨⟨rfl, rfl⟩, ⟨h.wasm, h.proposals, h.receipts⟩⟩

end Represents

/-- **The embedded database stands in for the storage in memory.** From states that hold
the same, any sequence of calls gets the same replies from both, except to anchoring,
when each is asked for a receipt by the handle that it gives out for it: what was stored
last under an identifier is what is loaded, through the keys of one tree and through the
bincode bytes, and the kinds never meet. Anchoring succeeds in memory and fails in the
database, and leaves no trace in the other replies. -/
theorem alike_trace {state : MemState} {db : SledDb} (h : Represents state db)
    {calls : List StorageCall} (hfits : ∀ call ∈ calls, call.Fits) :
    List.Forall₂ (fun call replies => call.Answered replies.1 replies.2) calls
      ((trace memStorage.call state (calls.map StorageCall.inMemory)).zip
        (trace sledStorage.call db calls)) :=
  forall₂_trace_of_simulation Represents StorageCall.Answered StorageCall.inMemory
    (fun _ _ _ hstate hcall => hstate.call hcall) h hfits

theorem represents_new : Represents MemState.new ∅ where
  wasm _ := rfl
  proposals _ := rfl
  receipts _ := rfl

def storageCalls : List StorageCall :=
  [.updateProposal ⟨"1", "2", "3", .approved, .majorityReached⟩, .storeWasm "1" [0, 97],
    .storeReceipt ⟨"1", "did:icn:node", "1", "2", "3", ⟨4, 5, some 6⟩, ["7"], [("cpu", 8)],
      9, none, some "10", some [11]⟩,
    .anchorToDag "1", .loadReceipt "1", .loadProposal "1", .loadWasm "1", .loadReceipt "2"]

theorem alike_trace_storageCalls :
    List.Forall₂ (fun call replies => call.Answered replies.1 replies.2) storageCalls
      ((trace memStorage.call MemState.new (storageCalls.map StorageCall.inMemory)).zip
        (trace sledStorage.call ∅ storageCalls)) := by
  refine alike_trace represents_new ?_
  simp only [storageCalls, List.forall_mem_cons, StorageCall.Fits, fits_proposalFormat_iff,
    fits_receiptFormat_iff, List.not_mem_nil, false_implies, implies_true]
  decide

end Runtime

end Icn
