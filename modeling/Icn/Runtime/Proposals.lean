import Icn.Foundation.Run.Interleaving
import Icn.Runtime.Jobs

/-!
# Executing proposals

`executeProposal` loads a proposal, checks it, loads its module and writes the
proposal back as executed. Runtimes are cloned over one storage and each access
to it may be interleaved with those of other calls, so `ProposalCall` says where a
call stands between two accesses; the sequential function is what a call does
when nobody interrupts it.

Nothing connects the check of the state with the write, so two calls can both
find the proposal approved. `NotStale` is the condition under which they do not:
a call that writes still finds the proposal approved.
-/

open Foundation

namespace Icn

namespace Runtime

open Identity Economics Mesh
open Interleaving

inductive ProposalState where
  | created
  | voting
  | approved
  | rejected
  | executed
deriving DecidableEq, Repr

/-- The name of a state, as `Debug` prints it. -/
def ProposalState.name : ProposalState → String
  | .created => "Created"
  | .voting => "Voting"
  | .approved => "Approved"
  | .rejected => "Rejected"
  | .executed => "Executed"

inductive QuorumStatus where
  | pending
  | majorityReached
  | thresholdReached
  | weightedReached
  | failed
deriving DecidableEq, Repr

/-- The name of a status, as `Debug` prints it. -/
def QuorumStatus.name : QuorumStatus → String
  | .pending => "Pending"
  | .majorityReached => "MajorityReached"
  | .thresholdReached => "ThresholdReached"
  | .weightedReached => "WeightedReached"
  | .failed => "Failed"

structure Proposal where
  id : String
  wasmCid : String
  cclCid : String
  state : ProposalState
  quorumStatus : QuorumStatus
deriving DecidableEq, Repr

/-- The in-memory storage. A proposal is stored under its own identifier. -/
structure MemStorage where
  proposals : HashMap String Proposal
  wasmModules : HashMap String (List UInt8)
  keyed : ∀ {id proposal}, proposals.lookup id = some proposal → proposal.id = id

namespace MemStorage

def loadProposal (storage : MemStorage) (id : String) : Except String Proposal :=
  match storage.proposals.lookup id with
  | some proposal => .ok proposal
  | none => .error s!"Proposal {id} not found"

def loadWasm (storage : MemStorage) (cid : String) : Except String (List UInt8) :=
  match storage.wasmModules.lookup cid with
  | some bytes => .ok bytes
  | none => .error s!"WASM {cid} not found"

def updateProposal (storage : MemStorage) (proposal : Proposal) : MemStorage where
  proposals := storage.proposals.insert proposal.id proposal
  wasmModules := storage.wasmModules
  keyed := by
    intro id stored h
    rw [HashMap.lookup_insert_eq_ite] at h
    split at h
    · next hid => rw [← Option.some.inj h, hid]
    · exact storage.keyed h

theorem id_eq_of_loadProposal {storage : MemStorage} {id : String} {proposal : Proposal}
    (h : storage.loadProposal id = .ok proposal) : proposal.id = id := by
  unfold loadProposal at h
  cases hlookup : storage.proposals.lookup id with
  | none =>
      rw [hlookup] at h
      cases h
  | some stored =>
      rw [hlookup] at h
      rw [← Except.ok.inj h]
      exact storage.keyed hlookup

end MemStorage

def Proposal.check (proposal : Proposal) : Except String Unit :=
  if proposal.state ≠ .approved then
    .error (s!"Invalid proposal state: Proposal must be in Approved state, " ++
      s!"not {proposal.state.name}")
  else
    match proposal.quorumStatus with
    | .majorityReached | .thresholdReached | .weightedReached => .ok ()
    | status =>
        .error (s!"Invalid proposal state: Quorum must be reached, " ++
          s!"current status: {status.name}")

def timestampSeconds (time : DateTime) : ℤ := time / 1000000000

def fakeResourceMap : HashMap ResourceType UInt64 :=
  ((∅ : HashMap ResourceType UInt64).insert .cpu 150).insert .memory 256

variable (didLib : DidLibrary) (order : HashMap.Order ResourceType UInt64)

def proposalReceipt (proposalId : String) (executorDid : Did) (clock : Clock) :
    ExecutionReceipt where
  jobId := s!"proposal-{proposalId}"
  executor := executorDid
  status := .completed
  resultDataCid := some "bafy...fake_result_cid"
  logsCid := none
  resourceUsage := order.entries fakeResourceMap
  manaCost := none
  executionStartTime := UInt64.ofInt (timestampSeconds clock.start - 2)
  executionEndTime := UInt64.ofInt (timestampSeconds clock.finish)
  executionEndTimeDt := clock.finish
  signature := []
  coopId := none
  communityId := none

/-- The executor of a context, with the default of one that has none. -/
def parseExecutor (executorId : Option String) : Except DidError Did :=
  Did.fromStr didLib (executorId.getD "did:icn:system")

def executeProposal (storage : MemStorage) (executorId : Option String) (clock : Clock)
    (proposalId : String) : Except String ExecutionReceipt × MemStorage :=
  match storage.loadProposal proposalId with
  | .error e => (.error e, storage)
  | .ok proposal =>
      match proposal.check with
      | .error e => (.error e, storage)
      | .ok () =>
          match storage.loadWasm proposal.wasmCid with
          | .error e => (.error e, storage)
          | .ok _ =>
              match parseExecutor didLib executorId with
              | .error e => (.error e.toString, storage)
              | .ok executorDid =>
                  (.ok (proposalReceipt order proposalId executorDid clock),
                    storage.updateProposal { proposal with state := .executed })

/-- Where a call stands: before it loads the proposal, before it loads the module,
before it writes the proposal back, or returned. A loaded proposal is the one that
was asked for. -/
inductive ProposalCall where
  | called (proposalId : String) (executorId : Option String) (clock : Clock)
  | loaded (proposalId : String) (executorId : Option String) (clock : Clock)
      (proposal : Proposal) (hid : proposal.id = proposalId)
  | ready (proposalId : String) (executorDid : Did) (clock : Clock)
      (proposal : Proposal) (hid : proposal.id = proposalId)
  | returned (proposalId : String) (result : Except String ExecutionReceipt)

namespace ProposalCall

def Start : ProposalCall → Prop
  | called _ _ _ => True
  | _ => False

/-- One access to the storage, with the checks that follow it. -/
inductive Next : MemStorage → ProposalCall → MemStorage → ProposalCall → Prop
  | notLoaded {storage : MemStorage} {proposalId : String} {executorId : Option String}
      {clock : Clock} {e : String} (h : storage.loadProposal proposalId = .error e) :
      Next storage (called proposalId executorId clock) storage
        (returned proposalId (.error e))
  | refused {storage : MemStorage} {proposalId : String} {executorId : Option String}
      {clock : Clock} {proposal : Proposal} {e : String}
      (h : storage.loadProposal proposalId = .ok proposal) (hcheck : proposal.check = .error e) :
      Next storage (called proposalId executorId clock) storage
        (returned proposalId (.error e))
  | load {storage : MemStorage} {proposalId : String} {executorId : Option String}
      {clock : Clock} {proposal : Proposal}
      (h : storage.loadProposal proposalId = .ok proposal) (hcheck : proposal.check = .ok ()) :
      Next storage (called proposalId executorId clock) storage
        (loaded proposalId executorId clock proposal (MemStorage.id_eq_of_loadProposal h))
  | noModule {storage : MemStorage} {proposalId : String} {executorId : Option String}
      {clock : Clock} {proposal : Proposal} {hid : proposal.id = proposalId} {e : String}
      (h : storage.loadWasm proposal.wasmCid = .error e) :
      Next storage (loaded proposalId executorId clock proposal hid) storage
        (returned proposalId (.error e))
  | noExecutor {storage : MemStorage} {proposalId : String} {executorId : Option String}
      {clock : Clock} {proposal : Proposal} {hid : proposal.id = proposalId}
      {bytes : List UInt8} {e : DidError} (h : storage.loadWasm proposal.wasmCid = .ok bytes)
      (hexecutor : parseExecutor didLib executorId = .error e) :
      Next storage (loaded proposalId executorId clock proposal hid) storage
        (returned proposalId (.error e.toString))
  | loadModule {storage : MemStorage} {proposalId : String} {executorId : Option String}
      {clock : Clock} {proposal : Proposal} {hid : proposal.id = proposalId}
      {bytes : List UInt8} {executorDid : Did}
      (h : storage.loadWasm proposal.wasmCid = .ok bytes)
      (hexecutor : parseExecutor didLib executorId = .ok executorDid) :
      Next storage (loaded proposalId executorId clock proposal hid) storage
        (ready proposalId executorDid clock proposal hid)
  | update {storage : MemStorage} {proposalId : String} {executorDid : Did} {clock : Clock}
      {proposal : Proposal} {hid : proposal.id = proposalId} :
      Next storage (ready proposalId executorDid clock proposal hid)
        (storage.updateProposal { proposal with state := .executed })
        (returned proposalId (.ok (proposalReceipt order proposalId executorDid clock)))

def protocol : Protocol MemStorage ProposalCall where
  start := Start
  next := Next didLib order

theorem alone_executeProposal (storage : MemStorage) (executorId : Option String)
    (clock : Clock) (proposalId : String) :
    (protocol didLib order).Alone (storage, called proposalId executorId clock)
      ((executeProposal didLib order storage executorId clock proposalId).2,
        returned proposalId
          (executeProposal didLib order storage executorId clock proposalId).1) := by
  cases hload : storage.loadProposal proposalId with
  | error e =>
      simp only [executeProposal, hload]
      exact .step (Next.notLoaded hload) .refl
  | ok proposal =>
      cases hcheck : proposal.check with
      | error e =>
          simp only [executeProposal, hload, hcheck]
          exact .step (Next.refused hload hcheck) .refl
      | ok u =>
          cases hwasm : storage.loadWasm proposal.wasmCid with
          | error e =>
              simp only [executeProposal, hload, hcheck, hwasm]
              exact .step (Next.load hload hcheck) (.step (Next.noModule hwasm) .refl)
          | ok bytes =>
              cases hexecutor : parseExecutor didLib executorId with
              | error e =>
                  simp only [executeProposal, hload, hcheck, hwasm, hexecutor]
                  exact .step (Next.load hload hcheck)
                    (.step (Next.noExecutor hwasm hexecutor) .refl)
              | ok executorDid =>
                  simp only [executeProposal, hload, hcheck, hwasm, hexecutor]
                  exact .step (Next.load hload hcheck)
                    (.step (Next.loadModule hwasm hexecutor) (.step Next.update .refl))

/-- One for a call that executed the proposal and returned `Ok`. -/
def executedBy (id : String) : ProposalCall → ℕ
  | returned proposalId (.ok _) => if proposalId = id then 1 else 0
  | _ => 0

def approvedStock (id : String) (storage : MemStorage) : ℕ :=
  if (storage.proposals.lookup id).any fun proposal => proposal.state = .approved then 1 else 0

/-- The stored proposal is still approved when a call writes it back. -/
def NotStale (storage : MemStorage) : ProposalCall → Prop
  | ready proposalId _ _ _ _ => approvedStock proposalId storage = 1
  | _ => True

theorem approvedStock_le_one (id : String) (storage : MemStorage) :
    approvedStock id storage ≤ 1 := by
  unfold approvedStock
  split
  · exact le_refl 1
  · exact Nat.zero_le 1

theorem approvedStock_updateProposal (id : String) (storage : MemStorage) (proposal : Proposal) :
    approvedStock id (storage.updateProposal { proposal with state := .executed }) =
      if id = proposal.id then 0 else approvedStock id storage := by
  unfold approvedStock MemStorage.updateProposal
  rw [HashMap.lookup_insert_eq_ite]
  split
  · next hid => simp
  · rfl

theorem next_account (id : String) {storage storage' : MemStorage} {call call' : ProposalCall}
    (h : Next didLib order storage call storage' call') (hfresh : NotStale storage call) :
    approvedStock id storage' + executedBy id call' ≤
      approvedStock id storage + executedBy id call := by
  cases h with
  | notLoaded h => exact le_refl _
  | refused h hcheck => exact le_refl _
  | load h hcheck => exact le_refl _
  | noModule h => exact le_refl _
  | noExecutor h hexecutor => exact le_refl _
  | loadModule h hexecutor => exact le_refl _
  | @update proposalId executorDid clock proposal hid =>
      have hstock : approvedStock proposalId storage = 1 := hfresh
      rw [approvedStock_updateProposal, hid]
      simp only [executedBy]
      by_cases h : id = proposalId
      · subst h
        rw [if_pos rfl, if_pos rfl, hstock]
      · rw [if_neg h, if_neg (Ne.symm h)]

/-- The only step of a call that changes the storage is the one it returns `Ok`
with. -/
theorem storage_eq_or_returned_ok {storage storage' : MemStorage} {call call' : ProposalCall}
    (h : Next didLib order storage call storage' call') :
    storage' = storage ∨ ∃ id receipt, call' = returned id (.ok receipt) := by
  cases h with
  | notLoaded h => exact .inl rfl
  | refused h hcheck => exact .inl rfl
  | load h hcheck => exact .inl rfl
  | noModule h => exact .inl rfl
  | noExecutor h hexecutor => exact .inl rfl
  | loadModule h hexecutor => exact .inl rfl
  | update => exact .inr ⟨_, _, rfl⟩

/-- A call that returned takes no further step. -/
theorem not_next_returned {storage storage' : MemStorage} {id : String}
    {result : Except String ExecutionReceipt} {call' : ProposalCall} :
    ¬ Next didLib order storage (returned id result) storage' call' := by
  intro h
  cases h

/-- In every run in which a call that writes still finds its proposal approved, at
most one call per proposal returns `Ok`; and in every run, a step that changes the
storage is the last of its call and returns `Ok`. -/
theorem executed_at_most_once (storage : MemStorage) (id : String)
    (c : Config MemStorage ProposalCall)
    (h : Reachable ((protocol didLib order).restrict NotStale) storage c) :
    tally (executedBy id) c ≤ 1 ∧
      ∀ storage call storage' call', (protocol didLib order).next storage call storage' call' →
        storage' ≠ storage → (∃ id receipt, call' = returned id (.ok receipt)) ∧
          ∀ later later' call'', ¬ (protocol didLib order).next later call' later' call'' := by
  constructor
  · have hstart : ∀ call, ((protocol didLib order).restrict NotStale).start call →
        executedBy id call ≤ 0 := by
      intro call hcall
      cases call with
      | called proposalId executorId clock => exact le_refl 0
      | loaded proposalId executorId clock proposal hid => exact hcall.elim
      | ready proposalId executorDid clock proposal hid => exact hcall.elim
      | returned proposalId result => exact hcall.elim
    have hstep : ∀ storage call storage' call',
        ((protocol didLib order).restrict NotStale).next storage call storage' call' →
          approvedStock id storage' + executedBy id call' + 0 ≤
            approvedStock id storage + executedBy id call + 0 :=
      fun _ _ _ _ hnext => next_account didLib order id hnext.1 hnext.2
    have haccount := tally_le_of_reachable (approvedStock id) (executedBy id) (fun _ => 0)
      hstart hstep h
    have hzero : tally (fun _ => 0) c = 0 := by simp [tally]
    have hone := approvedStock_le_one id storage
    omega
  · intro storage call storage' call' hnext hne
    obtain ⟨id, receipt, rfl⟩ :=
      (storage_eq_or_returned_ok didLib order hnext).resolve_left hne
    exact ⟨⟨id, receipt, rfl⟩, fun _ _ _ => not_next_returned didLib order⟩

def quorumProposal (state : ProposalState) : Proposal where
  id := "proposal-1"
  wasmCid := "wasm-cid"
  cclCid := "ccl-cid"
  state := state
  quorumStatus := .majorityReached

def approvedStorage : MemStorage where
  proposals := (∅ : HashMap String Proposal).insert "proposal-1" (quorumProposal .approved)
  wasmModules := (∅ : HashMap String (List UInt8)).insert "wasm-cid" []
  keyed := by
    intro id proposal h
    rw [HashMap.lookup_insert_eq_ite] at h
    split at h
    · next hid => rw [← Option.some.inj h, hid]; rfl
    · cases h

def executedStorage : MemStorage :=
  approvedStorage.updateProposal (quorumProposal .executed)

def baseCall : ProposalCall := called "proposal-1" (some basePointDid) ⟨0, 0⟩

def baseLoaded : ProposalCall :=
  loaded "proposal-1" (some basePointDid) ⟨0, 0⟩ (quorumProposal .approved) rfl

def baseReady : ProposalCall :=
  ready "proposal-1" ⟨basePointDid⟩ ⟨0, 0⟩ (quorumProposal .approved) rfl

noncomputable def baseReturned : ProposalCall :=
  returned "proposal-1" (.ok (proposalReceipt (.arbitrary _ _) "proposal-1" ⟨basePointDid⟩ ⟨0, 0⟩))

def baseRefused : ProposalCall :=
  returned "proposal-1"
    (.error "Invalid proposal state: Proposal must be in Approved state, not Executed")

theorem next_baseCall :
    Next base16Library (.arbitrary _ _) approvedStorage baseCall approvedStorage baseLoaded :=
  .load rfl rfl

theorem next_baseLoaded :
    Next base16Library (.arbitrary _ _) approvedStorage baseLoaded approvedStorage baseReady :=
  .loadModule rfl fromStr_basePointDid

theorem next_baseReady (storage : MemStorage) :
    Next base16Library (.arbitrary _ _) storage baseReady
      (storage.updateProposal (quorumProposal .executed)) baseReturned :=
  .update

theorem next_baseCall_executed :
    Next base16Library (.arbitrary _ _) executedStorage baseCall executedStorage baseRefused :=
  .refused (Eq.refl (Except.ok (quorumProposal .executed))) rfl

theorem executed_at_most_once_baseCall :
    Reachable ((protocol base16Library (.arbitrary _ _)).restrict NotStale) approvedStorage
        ⟨executedStorage, [baseReturned, baseRefused]⟩ ∧
      tally (executedBy "proposal-1") (⟨executedStorage, [baseReturned, baseRefused]⟩ :
        Config MemStorage ProposalCall) ≤ 1 := by
  have hcalled : Reachable ((protocol base16Library (.arbitrary _ _)).restrict NotStale)
      approvedStorage ⟨approvedStorage, [] ++ baseCall :: [baseCall]⟩ :=
    (Reachable.invoke .refl trivial).invoke trivial
  have hloaded := hcalled.advance approvedStorage baseLoaded ⟨next_baseCall, trivial⟩
  have hready := hloaded.advance approvedStorage baseReady ⟨next_baseLoaded, trivial⟩
  have hreturned : Reachable _ _ ⟨executedStorage, [baseReturned] ++ baseCall :: []⟩ :=
    hready.advance executedStorage baseReturned ⟨next_baseReady approvedStorage, rfl⟩
  have hrefused := hreturned.advance executedStorage baseRefused
    ⟨next_baseCall_executed, trivial⟩
  exact ⟨hrefused, (executed_at_most_once base16Library (.arbitrary _ _) approvedStorage
    "proposal-1" _ hrefused).1⟩

/-- Two calls load the approved proposal before either writes it back, and both
return `Ok`. -/
theorem executed_twice_of_interleaving :
    ¬ ∀ c : Config MemStorage ProposalCall,
        Reachable (protocol base16Library (.arbitrary _ _)) approvedStorage c →
          tally (executedBy "proposal-1") c ≤ 1 := by
  intro h
  have hcalled : Reachable (protocol base16Library (.arbitrary _ _)) approvedStorage
      ⟨approvedStorage, [] ++ baseCall :: [baseCall]⟩ :=
    (Reachable.invoke .refl trivial).invoke trivial
  have hloaded : Reachable _ _ ⟨approvedStorage, [baseLoaded] ++ baseCall :: []⟩ :=
    hcalled.advance approvedStorage baseLoaded next_baseCall
  have hreloaded : Reachable _ _ ⟨approvedStorage, [] ++ baseLoaded :: [baseLoaded]⟩ :=
    hloaded.advance approvedStorage baseLoaded next_baseCall
  have hready : Reachable _ _ ⟨approvedStorage, [baseReady] ++ baseLoaded :: []⟩ :=
    hreloaded.advance approvedStorage baseReady next_baseLoaded
  have hready' : Reachable _ _ ⟨approvedStorage, [] ++ baseReady :: [baseReady]⟩ :=
    hready.advance approvedStorage baseReady next_baseLoaded
  have hreturned : Reachable _ _ ⟨executedStorage, [baseReturned] ++ baseReady :: []⟩ :=
    hready'.advance executedStorage baseReturned (next_baseReady approvedStorage)
  have hreturned' := hreturned.advance _ baseReturned (next_baseReady executedStorage)
  have htwo := h _ hreturned'
  exact absurd htwo (by simp [tally, baseReturned, executedBy])

end ProposalCall

end Runtime

end Icn
