import Icn.Foundation.Codec.Bincode
import Icn.Foundation.Run.Sequential
import Icn.Foundation.Run.Simulation
import Icn.Economics.ManaLedger.Regenerator

/-!
# The persistent mana ledger

The persistent ledger keeps its states in a tree of byte strings: a state is
stored under the text of its DID. Listing the ledger reads the texts back as
identifiers, and a key that does not read back is logged and left out. The
embedded database is a map of byte strings here and its serialiser a
`StateCodec`, of which only the round trip matters.

A DID that came in by deserialisation was never parsed, so the ledger can hold
keys that a listing leaves out. `Represents` relates the tree to the map of the
in-memory ledger: reads agree on every DID, and a listing shows exactly the
DIDs whose text parses.
-/

open Foundation
open Foundation.Codec

namespace Icn

namespace Economics

open Identity

/-- The serialiser of mana states, with errors as their text. -/
structure StateCodec where
  serialize : ManaState → Except String (List UInt8)
  deserialize : List UInt8 → Except String ManaState

/-- Every state is written, and what is written is read back. -/
def StateCodec.RoundTrips (codec : StateCodec) : Prop :=
  ∀ state, ∃ bytes, codec.serialize state = .ok bytes ∧ codec.deserialize bytes = .ok state

abbrev SledTree := HashMap (List UInt8) (List UInt8)

namespace SledManaLedger

def didKey (did : Did) : List UInt8 := utf8 did.asStr

theorem didKey_injective : Function.Injective didKey := by
  intro did did' h
  exact Did.asStr_injective (utf8_injective h)

def parseKey (lib : DidLibrary) (key : List UInt8) : Option Did :=
  match ofUtf8 key with
  | some didStr =>
      match Did.fromStr lib didStr with
      | .ok parsedDid => some parsedDid
      | .error _ => none
  | none => none

variable (lib : DidLibrary) (codec : StateCodec)

def getManaState (tree : SledTree) (did : Did) : Except String (Option ManaState) :=
  match tree.lookup (didKey did) with
  | some ivec =>
      match codec.deserialize ivec with
      | .ok state => .ok (some state)
      | .error e => .error s!"Failed to deserialize ManaState for DID {did.asStr}: {e}"
  | none => .ok none

def updateManaState (tree : SledTree) (did : Did) (newState : ManaState) :
    Except String Unit × SledTree :=
  match codec.serialize newState with
  | .ok serializedState => (.ok (), tree.insert (didKey did) serializedState)
  | .error e => (.error s!"Serialization error for ManaState for DID {did.asStr}: {e}", tree)

def allDids (tree : SledTree) : Except String (Finset Did) :=
  .ok (Finset.eraseNone (tree.keys.image (parseKey lib)))

end SledManaLedger

def sledManaLedger (lib : DidLibrary) (codec : StateCodec) : ManaLedger SledTree where
  getManaState := SledManaLedger.getManaState codec
  updateManaState := SledManaLedger.updateManaState codec
  allDids := SledManaLedger.allDids lib

inductive ManaLedgerCall where
  | updateManaState (did : Did) (newState : ManaState)
  | getManaState (did : Did)
  | allDids
deriving DecidableEq

inductive ManaLedgerReply where
  | updated (result : Except String Unit)
  | state (result : Except String (Option ManaState))
  | dids (result : Except String (Finset Did))

def ManaLedger.call {σ : Type*} (ledger : ManaLedger σ) (s : σ) :
    ManaLedgerCall → ManaLedgerReply × σ
  | .updateManaState did newState =>
      (.updated (ledger.updateManaState s did newState).1,
        (ledger.updateManaState s did newState).2)
  | .getManaState did => (.state (ledger.getManaState s did), s)
  | .allDids => (.dids (ledger.allDids s), s)

def ManaLedger.after {σ : Type*} (ledger : ManaLedger σ) (s : σ)
    (calls : List ManaLedgerCall) : σ :=
  Run.run (fun s call => (ledger.call s call).2) s calls

/-- The reply with the listed DIDs cut down to those whose text parses. -/
def ManaLedgerReply.parsed (lib : DidLibrary) : ManaLedgerReply → ManaLedgerReply
  | .dids (.ok listed) =>
      .dids (.ok (listed.filter fun did => (Did.fromStr lib did.asStr).isOk))
  | reply => reply

namespace SledManaLedger

/-- A key that was written reads back exactly when its text parses. -/
theorem parseKey_didKey (lib : DidLibrary) (did : Did) :
    parseKey lib (didKey did) = if (Did.fromStr lib did.asStr).isOk then some did else none := by
  cases hparse : Did.fromStr lib did.asStr with
  | error e =>
      simp only [parseKey, didKey, ofUtf8_utf8, hparse]
      rfl
  | ok parsed =>
      have hdid : parsed = did := Did.asStr_injective (Did.value_of_fromStr hparse)
      simp only [parseKey, didKey, ofUtf8_utf8, hparse, hdid]
      rfl

/-- The tree holds the states of the in-memory map, under the texts of their
DIDs and nowhere else. -/
structure Represents (codec : StateCodec) (inner : HashMap Did ManaState) (tree : SledTree) :
    Prop where
  lookup : ∀ did, (tree.lookup (didKey did)).map codec.deserialize =
    (inner.lookup did).map .ok
  keys : ∀ key ∈ tree.keys, ∃ did, didKey did = key

variable {lib : DidLibrary} {codec : StateCodec} {inner : HashMap Did ManaState}
  {tree : SledTree}

theorem represents_empty (codec : StateCodec) : Represents codec ∅ ∅ where
  lookup _ := rfl
  keys key hkey := by cases hkey

namespace Represents

theorem mem_iff (h : Represents codec inner tree) (did : Did) :
    didKey did ∈ tree ↔ did ∈ inner := by
  rw [← Finmap.lookup_isSome, ← Finmap.lookup_isSome, ← Option.isSome_map, h.lookup,
    Option.isSome_map]

theorem getManaState_eq (h : Represents codec inner tree) (did : Did) :
    getManaState codec tree did = .ok (inner.lookup did) := by
  have hlookup := h.lookup did
  unfold getManaState
  cases htree : tree.lookup (didKey did) with
  | none =>
      rw [htree, Option.map_none, eq_comm, Option.map_eq_none_iff] at hlookup
      rw [hlookup]
  | some ivec =>
      rw [htree, Option.map_some, eq_comm, Option.map_eq_some_iff] at hlookup
      obtain ⟨state, hstate, hread⟩ := hlookup
      simp only [hstate, ← hread]

theorem updateManaState (h : Represents codec inner tree) (hcodec : codec.RoundTrips)
    (did : Did) (newState : ManaState) :
    ∃ tree', SledManaLedger.updateManaState codec tree did newState = (.ok (), tree') ∧
      Represents codec (inner.insert did newState) tree' := by
  obtain ⟨bytes, hwrite, hread⟩ := hcodec newState
  refine ⟨tree.insert (didKey did) bytes, ?_, ?_, ?_⟩
  · rw [SledManaLedger.updateManaState, hwrite]
  · intro other
    rw [HashMap.lookup_insert_eq_ite, HashMap.lookup_insert_eq_ite]
    by_cases hother : other = did
    · rw [if_pos hother, if_pos (congrArg didKey hother), Option.map_some, Option.map_some, hread]
    · rw [if_neg hother, if_neg (didKey_injective.ne hother), h.lookup]
  · intro key hkey
    rw [HashMap.keys_insert, Finset.mem_insert] at hkey
    rcases hkey with rfl | hkey
    · exact ⟨did, rfl⟩
    · exact h.keys key hkey

theorem allDids_eq (h : Represents codec inner tree) :
    allDids lib tree =
      .ok (inner.keys.filter fun did => (Did.fromStr lib did.asStr).isOk) := by
  unfold allDids
  congr 1
  ext did
  rw [Finset.mem_eraseNone, Finset.mem_image, Finset.mem_filter, Finmap.mem_keys, ← h.mem_iff]
  constructor
  · rintro ⟨key, hkey, hparse⟩
    obtain ⟨did', rfl⟩ := h.keys key hkey
    rw [parseKey_didKey] at hparse
    split at hparse
    · next hok =>
      obtain rfl := Option.some.inj hparse
      exact ⟨Finmap.mem_keys.mp hkey, hok⟩
    · cases hparse
  · rintro ⟨hmem, hok⟩
    refine ⟨didKey did, Finmap.mem_keys.mpr hmem, ?_⟩
    rw [parseKey_didKey, if_pos hok]

/-- A call on the tree answers as the in-memory ledger does, up to the DIDs that
do not parse, and the two stay related. -/
theorem call (h : Represents codec inner tree) (hcodec : codec.RoundTrips)
    (call : ManaLedgerCall) :
    ((sledManaLedger lib codec).call tree call).1 =
        ((inMemoryManaLedger.call inner call).1).parsed lib ∧
      Represents codec (inMemoryManaLedger.call inner call).2
        ((sledManaLedger lib codec).call tree call).2 := by
  cases call with
  | updateManaState did newState =>
      obtain ⟨tree', hupdate, hnext⟩ := h.updateManaState hcodec did newState
      simp only [ManaLedger.call, sledManaLedger, hupdate]
      exact ⟨rfl, hnext⟩
  | getManaState did =>
      simp only [ManaLedger.call, sledManaLedger, h.getManaState_eq]
      exact ⟨rfl, h⟩
  | allDids =>
      simp only [ManaLedger.call, sledManaLedger, h.allDids_eq]
      exact ⟨rfl, h⟩

theorem tickLoop (h : Represents codec inner tree) (hcodec : codec.RoundTrips)
    (policy : RegenerationPolicy) (dids : List Did) (details : RegenerationTickDetails) :
    Represents codec (ManaRegenerator.tickLoop inMemoryManaLedger policy dids details inner).2
      (ManaRegenerator.tickLoop (sledManaLedger lib codec) policy dids details tree).2 := by
  induction dids generalizing details inner tree with
  | nil => exact h
  | cons did dids ih =>
      have hread : (sledManaLedger lib codec).getManaState tree did =
          inMemoryManaLedger.getManaState inner did := h.getManaState_eq did
      rw [ManaRegenerator.tickLoop, ManaRegenerator.tickLoop, hread]
      rcases ManaRegenerator.onRead policy did details
        (inMemoryManaLedger.getManaState inner did) with ⟨details', _ | state⟩
      · exact ih h details'
      · obtain ⟨tree', hupdate, hnext⟩ := h.updateManaState hcodec did state
        simp only [sledManaLedger, hupdate]
        exact ih hnext (ManaRegenerator.onUpdate did details' (.ok ()))

end Represents

theorem represents_after (lib : DidLibrary) (hcodec : codec.RoundTrips)
    (calls : List ManaLedgerCall) :
    Represents codec (inMemoryManaLedger.after ∅ calls)
      ((sledManaLedger lib codec).after ∅ calls) :=
  Run.run_of_simulation (Represents codec) (fun _ _ call h => (h.call hcodec call).2)
    (represents_empty codec) calls

theorem trace_call (lib : DidLibrary) (hcodec : codec.RoundTrips)
    (calls : List ManaLedgerCall) :
    Run.trace (sledManaLedger lib codec).call ∅ calls =
      (Run.trace inMemoryManaLedger.call ∅ calls).map (ManaLedgerReply.parsed lib) := by
  rw [Run.map_trace]
  exact Run.trace_eq_of_simulation (fun tree inner => Represents codec inner tree)
    (fun _ _ call h => h.call hcodec call) (represents_empty codec) calls

/-- A tick over the tree regenerates the states whose DID parses and leaves the
others. -/
theorem getManaState_tick (lib : DidLibrary) (h : Represents codec inner tree)
    (hcodec : codec.RoundTrips) (policy : RegenerationPolicy) {order : Finset Did → List Did}
    (horder : ManaRegenerator.Lists order) (did : Did) :
    getManaState codec
        (ManaRegenerator.tick (sledManaLedger lib codec) policy order tree).2 did =
      .ok (if (Did.fromStr lib did.asStr).isOk then (inner.lookup did).map policy.regenerate
        else inner.lookup did) := by
  have hlist : (sledManaLedger lib codec).allDids tree =
      .ok (inner.keys.filter fun did => (Did.fromStr lib did.asStr).isOk) := h.allDids_eq
  simp only [ManaRegenerator.tick, hlist]
  rw [(h.tickLoop hcodec policy _ _).getManaState_eq,
    ManaRegenerator.lookup_tickLoop policy (horder _).1]
  simp only [horder.mem_iff, Finset.mem_filter, Finmap.mem_keys]
  by_cases hmem : did ∈ inner
  · simp only [hmem, true_and]
  · simp only [hmem, false_and, Finmap.lookup_eq_none.mpr hmem, Option.map_none, ite_self]

/-- The two ledgers answer every sequence of calls alike, except that a listing
of the tree shows only the DIDs whose text parses. A tick then has the same
effect on those, in whichever order either ledger is listed, and none on the
others. -/
theorem sled_refines_inMemory (lib : DidLibrary) {codec : StateCodec}
    (hcodec : codec.RoundTrips) (calls : List ManaLedgerCall) (policy : RegenerationPolicy)
    {order order' : Finset Did → List Did} (horder : ManaRegenerator.Lists order)
    (horder' : ManaRegenerator.Lists order') :
    Run.trace (sledManaLedger lib codec).call ∅ calls =
        (Run.trace inMemoryManaLedger.call ∅ calls).map (ManaLedgerReply.parsed lib) ∧
      ∀ did, (sledManaLedger lib codec).getManaState
          (ManaRegenerator.tick (sledManaLedger lib codec) policy order
            ((sledManaLedger lib codec).after ∅ calls)).2 did =
        if (Did.fromStr lib did.asStr).isOk then
          inMemoryManaLedger.getManaState (ManaRegenerator.tick inMemoryManaLedger policy order'
            (inMemoryManaLedger.after ∅ calls)).2 did
        else inMemoryManaLedger.getManaState (inMemoryManaLedger.after ∅ calls) did := by
  refine ⟨trace_call lib hcodec calls, ?_⟩
  intro did
  have hmemory : inMemoryManaLedger.getManaState (ManaRegenerator.tick inMemoryManaLedger policy
      order' (inMemoryManaLedger.after ∅ calls)).2 did =
        .ok (((inMemoryManaLedger.after ∅ calls).lookup did).map policy.regenerate) :=
    congrArg Except.ok (ManaRegenerator.lookup_tick policy horder' _ did)
  have hsled :=
    getManaState_tick lib (represents_after lib hcodec calls) hcodec policy horder did
  rw [hmemory]
  refine hsled.trans ?_
  split
  · rfl
  · rfl

def bincodeStateCodec : StateCodec where
  serialize state :=
    .ok (Bincode.u64 state.currentMana ++ (Bincode.u64 state.maxMana ++
      (Bincode.u64 state.regenRatePerEpoch ++ (Bincode.u64 state.lastUpdatedEpoch ++ []))))
  deserialize bytes :=
    let read := do
      let (currentMana, bytes) ← Bincode.readU64 bytes
      let (maxMana, bytes) ← Bincode.readU64 bytes
      let (regenRatePerEpoch, bytes) ← Bincode.readU64 bytes
      let (lastUpdatedEpoch, _) ← Bincode.readU64 bytes
      return (⟨currentMana, maxMana, regenRatePerEpoch, lastUpdatedEpoch⟩ : ManaState)
    match read with
    | some state => .ok state
    | none => .error "unexpected end of file"

theorem roundTrips_bincodeStateCodec : bincodeStateCodec.RoundTrips := by
  intro state
  refine ⟨_, rfl, ?_⟩
  simp only [bincodeStateCodec, Bincode.readU64_u64, Option.bind_eq_bind, Option.bind_some]
  rfl

def unparsedUpdate : ManaLedgerCall :=
  .updateManaState ⟨"bob"⟩ ⟨0, 100, 0, 0⟩

theorem sled_refines_inMemory_unparsedUpdate :
    bincodeStateCodec.RoundTrips ∧ ManaRegenerator.Lists Finset.toList ∧
      Run.trace (sledManaLedger base16Library bincodeStateCodec).call ∅
          [unparsedUpdate, .getManaState ⟨"bob"⟩] =
        (Run.trace inMemoryManaLedger.call ∅ [unparsedUpdate, .getManaState ⟨"bob"⟩]).map
          (ManaLedgerReply.parsed base16Library) :=
  ⟨roundTrips_bincodeStateCodec, ManaRegenerator.lists_toList,
    (sled_refines_inMemory base16Library roundTrips_bincodeStateCodec
      [unparsedUpdate, .getManaState ⟨"bob"⟩] (.fixedRatePerTick 10)
      ManaRegenerator.lists_toList ManaRegenerator.lists_toList).1⟩

theorem not_isOk_fromStr_bob : (Did.fromStr base16Library "bob").isOk = false := rfl

/-- The in-memory ledger lists a DID that does not parse, the persistent one does
not. -/
theorem listing_differs_of_unparsed :
    inMemoryManaLedger.allDids (inMemoryManaLedger.after ∅ [unparsedUpdate]) =
        .ok {⟨"bob"⟩} ∧
      (sledManaLedger base16Library bincodeStateCodec).allDids
          ((sledManaLedger base16Library bincodeStateCodec).after ∅ [unparsedUpdate]) =
        .ok ∅ := by
  refine ⟨rfl, ?_⟩
  refine (represents_after base16Library roundTrips_bincodeStateCodec
    [unparsedUpdate]).allDids_eq.trans ?_
  apply congrArg Except.ok
  apply Finset.filter_eq_empty_iff.mpr
  intro did hdid hparse
  have hbob : (inMemoryManaLedger.after ∅ [unparsedUpdate]).keys = {⟨"bob"⟩} := rfl
  rw [hbob, Finset.mem_singleton] at hdid
  subst hdid
  exact Bool.false_ne_true (not_isOk_fromStr_bob.symm.trans hparse)

end SledManaLedger

end Economics

end Icn
