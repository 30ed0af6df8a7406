import Icn.Identity.Quorum.Transport
import Icn.Identity.Trust.Bundle

/-!
# Trust bundles in JSON

The additional metadata of a federation is flattened: its entries stand in the
same object as the name, the description and the version, after these and in the
order in which the hash map iterates. A bundle that is read back has a new hash
map, with an order of its own, and an additional entry under the name of a field
is taken for that field.

The bytes that are signed show both. `calculateHash_eq_iff` says that they keep
the order of the entries, `FederationMetadata.ofJson_toJson_eq_iff` when metadata
is read back as it was written, and `accepted_readBack_iff` what a quorum has to
hope for when its bundle is sent as JSON.
-/

open Foundation
open Foundation.Codec
open Foundation.Codec.Json

namespace Icn

namespace Identity

namespace FederationMetadata

def fieldNames : List String := ["name", "description", "version"]

def toEntries (metadata : FederationMetadata Json) : List (String × Json) :=
  ("name", .string metadata.name) ::
    ((metadata.description.toList.map fun description => ("description", .string description)) ++
      ("version", .string metadata.version) ::
        metadata.additional.entries.map fun e => (e.1, e.2))

def toJson (metadata : FederationMetadata Json) : Json := .object metadata.toEntries

/-- What the reader of metadata has found. Entries under other names are
collected. -/
structure Fields where
  name : Option String
  description : Option (Option String)
  version : Option String
  collect : List (String × Json)

def visitEntry (fields : Fields) (entry : String × Json) : ReadIdentity Fields :=
  match entry with
  | ("name", value) => do
      let name ← readField "name" fields.name readString value
      return { fields with name }
  | ("description", value) => do
      let description ← readField "description" fields.description (readOption readString) value
      return { fields with description }
  | ("version", value) => do
      let version ← readField "version" fields.version readString value
      return { fields with version }
  | entry => .ok { fields with collect := fields.collect ++ [entry] }

def ofJson (order : HashMap.Order String Json) : Json → ReadIdentity (FederationMetadata Json)
  | .object entries => do
      let fields ← entries.foldlM visitEntry ⟨none, none, none, []⟩
      let name ← required "name" fields.name
      let version ← required "version" fields.version
      return {
        name
        description := fields.description.join
        version
        additional := order.entries (HashMap.ofEntries fields.collect)
      }
  | _ => .error (.invalidType "struct FederationMetadata")

theorem visitEntry_of_notMem {entry : String × Json} (h : entry.1 ∉ fieldNames)
    (fields : Fields) :
    visitEntry fields entry = .ok { fields with collect := fields.collect ++ [entry] } := by
  obtain ⟨key, value⟩ := entry
  unfold visitEntry
  split
  · exact absurd h (by simp_all [fieldNames])
  · exact absurd h (by simp_all [fieldNames])
  · exact absurd h (by simp_all [fieldNames])
  · rfl

/-- Entries under other names are collected in order. -/
theorem foldlM_visitEntry {entries : List (String × Json)}
    (h : ∀ entry ∈ entries, entry.1 ∉ fieldNames) (fields : Fields) :
    entries.foldlM visitEntry fields =
      .ok { fields with collect := fields.collect ++ entries } := by
  induction entries generalizing fields with
  | nil => simp [pure, Except.pure]
  | cons entry entries ih =>
      rw [List.foldlM_cons, visitEntry_of_notMem (h entry (by simp))]
      change entries.foldlM visitEntry _ = _
      rw [ih fun other hother => h other (List.mem_cons_of_mem entry hother)]
      simp

theorem collect_of_visitEntry {fields fields' : Fields} {entry : String × Json}
    (hmem : entry.1 ∈ fieldNames) (h : visitEntry fields entry = .ok fields') :
    fields'.collect = fields.collect := by
  obtain ⟨key, value⟩ := entry
  unfold visitEntry at h
  split at h
  · obtain ⟨name, -, h⟩ := Fallible.bind_eq_ok_iff.mp h
    cases h
    rfl
  · obtain ⟨description, -, h⟩ := Fallible.bind_eq_ok_iff.mp h
    cases h
    rfl
  · obtain ⟨version, -, h⟩ := Fallible.bind_eq_ok_iff.mp h
    cases h
    rfl
  · simp_all [fieldNames]

theorem notMem_of_foldlM {entries : List (String × Json)} {fields fields' : Fields}
    (h : entries.foldlM visitEntry fields = .ok fields')
    (hfields : ∀ entry ∈ fields.collect, entry.1 ∉ fieldNames) :
    ∀ entry ∈ fields'.collect, entry.1 ∉ fieldNames := by
  induction entries generalizing fields with
  | nil =>
      cases h
      exact hfields
  | cons entry entries ih =>
      rw [List.foldlM_cons] at h
      obtain ⟨next, hvisit, h⟩ := Fallible.bind_eq_ok_iff.mp h
      apply ih h
      by_cases hmem : entry.1 ∈ fieldNames
      · rwa [collect_of_visitEntry hmem hvisit]
      · rw [visitEntry_of_notMem hmem] at hvisit
        cases hvisit
        intro other hother
        rcases List.mem_append.mp hother with hother | hother
        · exact hfields other hother
        · rwa [List.mem_singleton.mp hother]

/-- Metadata that was read has no additional entry under the name of a field. -/
theorem notMem_of_ofJson {order : HashMap.Order String Json} {json : Json}
    {metadata : FederationMetadata Json} (h : ofJson order json = .ok metadata) :
    ∀ key ∈ metadata.additional, key ∉ fieldNames := by
  cases json with
  | object entries =>
      rw [ofJson] at h
      obtain ⟨fields, hfields, h⟩ := Fallible.bind_eq_ok_iff.mp h
      obtain ⟨name, -, h⟩ := Fallible.bind_eq_ok_iff.mp h
      obtain ⟨version, -, h⟩ := Fallible.bind_eq_ok_iff.mp h
      cases h
      intro key hkey
      rw [← Finmap.mem_toFinmap, order.toFinmap_entries] at hkey
      obtain ⟨entry, hentry, rfl⟩ := HashMap.exists_of_mem_ofEntries hkey
      exact notMem_of_foldlM hfields (by simp) entry hentry
  | _ => cases h

/-- Without entries under the names of fields, only the order is new. -/
theorem ofJson_toJson (order : HashMap.Order String Json) (metadata : FederationMetadata Json)
    (h : ∀ key ∈ metadata.additional, key ∉ fieldNames) :
    ofJson order metadata.toJson =
      .ok { metadata with additional := order.entries metadata.additional.toFinmap } := by
  have hentries : ∀ entry ∈ metadata.additional.entries.map fun e => (e.1, e.2),
      entry.1 ∉ fieldNames := by
    intro entry hentry
    obtain ⟨e, he, rfl⟩ := List.mem_map.mp hentry
    exact h e.1 (List.mem_keys_of_mem he)
  have hfields : metadata.toEntries.foldlM visitEntry ⟨none, none, none, []⟩ =
      .ok ⟨some metadata.name, metadata.description.map some, some metadata.version,
        metadata.additional.entries.map fun e => (e.1, e.2)⟩ := by
    unfold toEntries
    cases metadata.description with
    | none => exact foldlM_visitEntry hentries ⟨_, none, _, []⟩
    | some description => exact foldlM_visitEntry hentries ⟨_, some (some description), _, []⟩
  rw [toJson, ofJson, hfields]
  simp only [bind, Except.bind, required, HashMap.ofEntries_entries, pure, Except.pure]
  cases metadata.description <;> rfl

/-- The entries determine the metadata, the order of the additional ones
included. -/
theorem toEntries_injective : Function.Injective toEntries := by
  rintro ⟨name, description, version, additional⟩ ⟨name', description', version', additional'⟩ h
  simp only [toEntries, List.cons.injEq, Prod.mk.injEq, Json.string.injEq, true_and] at h
  obtain ⟨rfl, h⟩ := h
  have hadditional : additional.entries.map (fun e => (e.1, e.2)) =
      additional'.entries.map (fun e => (e.1, e.2)) → additional = additional' := by
    intro hmap
    apply AList.ext
    exact List.map_injective_iff.mpr (fun e e' he => by
      cases e
      cases e'
      cases he
      rfl) hmap
  cases description <;> cases description' <;> simp at h
  · obtain ⟨rfl, h⟩ := h
    rw [hadditional h]
  · obtain ⟨rfl, rfl, h⟩ := h
    rw [hadditional h]

theorem toJson_injective : Function.Injective toJson := by
  intro metadata metadata' h
  exact toEntries_injective (Json.object.inj h)

theorem ofJson_toJson_eq_iff (order : HashMap.Order String Json)
    (metadata : FederationMetadata Json) :
    ofJson order metadata.toJson = .ok metadata ↔
      (∀ key ∈ metadata.additional, key ∉ fieldNames) ∧
        order.entries metadata.additional.toFinmap = metadata.additional := by
  constructor
  · intro h
    have hkeys := notMem_of_ofJson h
    rw [ofJson_toJson order metadata hkeys] at h
    exact ⟨hkeys, congrArg FederationMetadata.additional (Except.ok.inj h)⟩
  · rintro ⟨hkeys, horder⟩
    rw [ofJson_toJson order metadata hkeys, horder]

end FederationMetadata

namespace TrustBundle

def toJson (weightOrder : HashMap.Order Did UInt16)
    (bundle : TrustBundle Json Ed25519Signature) : Json :=
  .object (("root_dag_cid", .string bundle.rootDagCid) ::
    ("federation_metadata", bundle.federationMetadata.toJson) ::
      bundle.quorumProof.toList.map fun proof => ("quorum_proof", proof.toJson weightOrder))

/-- `serde_json::to_vec`, which has no reason to fail on a bundle. -/
def toVec (weightOrder : HashMap.Order Did UInt16)
    (bundle : TrustBundle Json Ed25519Signature) : Except String (List UInt8) :=
  .ok (bundle.toJson weightOrder).render

structure Fields where
  rootDagCid : Option String
  federationMetadata : Option (FederationMetadata Json)
  quorumProof : Option (Option (QuorumProof Ed25519Signature))

def visitEntry (order : HashMap.Order String Json) (fields : Fields) (entry : String × Json) :
    ReadIdentity Fields :=
  match entry with
  | ("root_dag_cid", value) => do
      let rootDagCid ← readField "root_dag_cid" fields.rootDagCid readString value
      return { fields with rootDagCid }
  | ("federation_metadata", value) => do
      let federationMetadata ← readField "federation_metadata" fields.federationMetadata
        (FederationMetadata.ofJson order) value
      return { fields with federationMetadata }
  | ("quorum_proof", value) => do
      let quorumProof ← readField "quorum_proof" fields.quorumProof
        (readOption QuorumProof.ofJson) value
      return { fields with quorumProof }
  | _ => .ok fields

def ofJson (order : HashMap.Order String Json) :
    Json → ReadIdentity (TrustBundle Json Ed25519Signature)
  | .object entries => do
      let fields ← entries.foldlM (visitEntry order) ⟨none, none, none⟩
      let rootDagCid ← required "root_dag_cid" fields.rootDagCid
      let federationMetadata ← required "federation_metadata" fields.federationMetadata
      return ⟨rootDagCid, federationMetadata, fields.quorumProof.join⟩
  | .array [rootDagCid, federationMetadata, quorumProof] => do
      let rootDagCid ← readString rootDagCid
      let federationMetadata ← FederationMetadata.ofJson order federationMetadata
      let quorumProof ← readOption QuorumProof.ofJson quorumProof
      return ⟨rootDagCid, federationMetadata, quorumProof⟩
  | .array items => .error (.invalidLength items.length "struct TrustBundle with 3 elements")
  | _ => .error (.invalidType "struct TrustBundle")

/-- A bundle written as JSON and read again. The text is taken apart by `parse`, and
the new hash map of additional entries iterates by `order`. -/
def readBack (parse : List UInt8 → ReadIdentity Json) (weightOrder : HashMap.Order Did UInt16)
    (order : HashMap.Order String Json) (bundle : TrustBundle Json Ed25519Signature) :
    ReadIdentity (TrustBundle Json Ed25519Signature) := do
  let json ← parse (bundle.toJson weightOrder).render
  ofJson order json

/-- All but the metadata is read back as it was written. -/
theorem ofJson_toJson (weightOrder : HashMap.Order Did UInt16)
    (order : HashMap.Order String Json) (bundle : TrustBundle Json Ed25519Signature) :
    ofJson order (bundle.toJson weightOrder) =
      (FederationMetadata.ofJson order bundle.federationMetadata.toJson).map fun metadata =>
        { bundle with federationMetadata := metadata } := by
  obtain ⟨rootDagCid, metadata, quorumProof⟩ := bundle
  have hproof : ∀ proof : QuorumProof Ed25519Signature,
      readOption QuorumProof.ofJson (proof.toJson weightOrder) = .ok (some proof) := by
    intro proof
    change (QuorumProof.ofJson (proof.toJson weightOrder)).map some = _
    rw [QuorumProof.ofJson_toJson]
    rfl
  cases hmetadata : FederationMetadata.ofJson order metadata.toJson with
  | error e => simp [toJson, ofJson, visitEntry, readField, hmetadata, readString, Except.map,
      bind, Except.bind, pure, Except.pure]
  | ok metadata' =>
      cases quorumProof with
      | none => simp [toJson, ofJson, visitEntry, readField, hmetadata, readString, Except.map,
          bind, Except.bind, pure, Except.pure, required]
      | some proof => simp [toJson, ofJson, visitEntry, readField, hmetadata, readString, hproof,
          Except.map, bind, Except.bind, pure, Except.pure, required]

def hashBytes (bundle : TrustBundle Json Ed25519Signature) : List UInt8 :=
  (Json.object [("root_dag_cid", .string bundle.rootDagCid),
    ("federation_metadata", bundle.federationMetadata.toJson)]).render

@[simp] theorem calculateHash_toVec (weightOrder : HashMap.Order Did UInt16)
    (bundle : TrustBundle Json Ed25519Signature) :
    bundle.calculateHash (toVec weightOrder) = .ok bundle.hashBytes := rfl

/-- The bytes determine the root and the metadata, the order of the additional
entries included. -/
theorem hashBytes_eq_iff (bundle bundle' : TrustBundle Json Ed25519Signature) :
    bundle.hashBytes = bundle'.hashBytes ↔
      bundle.rootDagCid = bundle'.rootDagCid ∧
        bundle.federationMetadata = bundle'.federationMetadata := by
  constructor
  · intro h
    have hentries := Json.object.inj (render_injective h)
    simp only [List.cons.injEq, Prod.mk.injEq, Json.string.injEq, true_and, and_true] at hentries
    exact ⟨hentries.1, FederationMetadata.toJson_injective hentries.2⟩
  · rintro ⟨hroot, hmetadata⟩
    rw [hashBytes, hashBytes, hroot, hmetadata]

end TrustBundle

/-- The same metadata: the additional entries are compared as a finite map. -/
def FederationMetadata.Equal (metadata metadata' : FederationMetadata Json) : Prop :=
  metadata.name = metadata'.name ∧ metadata.description = metadata'.description ∧
    metadata.version = metadata'.version ∧
      metadata.additional.toFinmap = metadata'.additional.toFinmap

theorem FederationMetadata.Equal.eq_iff {metadata metadata' : FederationMetadata Json}
    (h : metadata.Equal metadata') :
    metadata = metadata' ↔ metadata.additional.entries = metadata'.additional.entries := by
  obtain ⟨name, description, version, additional⟩ := metadata
  obtain ⟨name', description', version', additional'⟩ := metadata'
  obtain ⟨rfl, rfl, rfl, -⟩ := h
  constructor
  · rintro ⟨⟩
    rfl
  · intro hentries
    exact congrArg (FederationMetadata.mk name description version) (AList.ext hentries)

namespace TrustBundle

/-- Bundles of the same value have the same hash exactly if their hash maps iterate
in the same order. -/
theorem calculateHash_eq_iff (weightOrder : HashMap.Order Did UInt16)
    (bundle bundle' : TrustBundle Json Ed25519Signature)
    (hroot : bundle.rootDagCid = bundle'.rootDagCid)
    (hmetadata : bundle.federationMetadata.Equal bundle'.federationMetadata) :
    bundle.calculateHash (toVec weightOrder) = bundle'.calculateHash (toVec weightOrder) ↔
      bundle.federationMetadata.additional.entries =
        bundle'.federationMetadata.additional.entries := by
  rw [calculateHash_toVec, calculateHash_toVec, Except.ok.injEq, hashBytes_eq_iff,
    hmetadata.eq_iff]
  exact and_iff_right hroot

section Signed

variable (scheme : SignatureScheme) {lib : DidLibrary} (kp : KeyPair scheme lib)
variable (parse : List UInt8 → ReadIdentity Json) (weightOrder : HashMap.Order Did UInt16)
variable (order : HashMap.Order String Json) (bundle : TrustBundle Json Ed25519Signature)

/-- `VerifyingKey::verify` on the bytes of a signature. -/
def pkVerify (pk message : List UInt8) (signature : Ed25519Signature) : Bool :=
  scheme.verify pk message signature.1

/-- The bundle is accepted by its signers. -/
def Accepted (allowedSigners : HashMap Did (List UInt8)) : Prop :=
  bundle.verify (pkVerify scheme) (toVec weightOrder) allowedSigners = .ok ()

/-- The messages of a bundle: the bytes signed for it, and those checked once its
metadata was read back. -/
def messages : Set (List UInt8) :=
  {message | ∃ metadata, (metadata = bundle.federationMetadata ∨
    FederationMetadata.ofJson order bundle.federationMetadata.toJson = .ok metadata) ∧
      { bundle with federationMetadata := metadata }.hashBytes = message}

def soleProof (message : List UInt8) : QuorumProof Ed25519Signature :=
  ⟨.threshold 1, [(kp.did, ⟨kp.sign message, kp.length_sign message⟩)]⟩

def soleSigner : HashMap Did (List UInt8) := Finmap.singleton kp.did kp.pk

variable {scheme}

theorem accepted_addQuorumProof_iff (proof : QuorumProof Ed25519Signature)
    (allowedSigners : HashMap Did (List UInt8)) :
    (bundle.addQuorumProof proof).Accepted scheme weightOrder allowedSigners ↔
      proof.verify (pkVerify scheme) bundle.hashBytes allowedSigners = .ok () := by
  rw [Accepted, verify_eq_ok_iff]
  constructor
  · rintro ⟨proof', hash, hproof, hhash, hverify⟩
    cases hproof
    cases hhash
    exact hverify
  · intro hverify
    exact ⟨proof, bundle.hashBytes, rfl, rfl, hverify⟩

theorem verify_soleProof_iff (message message' : List UInt8) :
    (soleProof scheme kp message).verify (pkVerify scheme) message' (soleSigner scheme kp) =
        .ok () ↔
      scheme.verify kp.pk message' (kp.sign message) = true := by
  have hlookup : (soleSigner scheme kp).lookup kp.did = some kp.pk := Finmap.lookup_singleton_eq
  have hcard : (soleSigner scheme kp).keys.card = 1 := by
    rw [soleSigner, Finmap.keys_singleton, Finset.card_singleton]
  rw [Identity.verify_eq_ok_iff, validSignatures]
  simp only [soleProof, List.map_cons, List.map_nil, List.nodup_singleton, true_and,
    List.filterMap_cons, List.filterMap_nil, hlookup, pkVerify, quorumMet, hcard]
  by_cases hverify : scheme.verify kp.pk message' (kp.sign message) = true <;> simp [hverify]

theorem readBack_addQuorumProof (proof : QuorumProof Ed25519Signature)
    (hparse : parse ((bundle.addQuorumProof proof).toJson weightOrder).render =
      .ok ((bundle.addQuorumProof proof).toJson weightOrder)) :
    (bundle.addQuorumProof proof).readBack parse weightOrder order =
      (FederationMetadata.ofJson order bundle.federationMetadata.toJson).map fun metadata =>
        { bundle with federationMetadata := metadata }.addQuorumProof proof := by
  rw [readBack, hparse]
  exact ofJson_toJson weightOrder order (bundle.addQuorumProof proof)

include kp in
/-- Whatever quorum vouches for it, a bundle that was accepted is accepted after it
was read back, exactly if its metadata is read back as it was written. -/
theorem accepted_readBack_iff
    (hparse : ∀ proof, parse ((bundle.addQuorumProof proof).toJson weightOrder).render =
      .ok ((bundle.addQuorumProof proof).toJson weightOrder))
    (hideal : scheme.IdealOn (messages order bundle)) :
    (∀ proof allowedSigners,
        (bundle.addQuorumProof proof).Accepted scheme weightOrder allowedSigners →
          ∃ bundle', (bundle.addQuorumProof proof).readBack parse weightOrder order = .ok bundle' ∧
            bundle'.Accepted scheme weightOrder allowedSigners) ↔
      (∀ key ∈ bundle.federationMetadata.additional, key ∉ FederationMetadata.fieldNames) ∧
        order.entries bundle.federationMetadata.additional.toFinmap =
          bundle.federationMetadata.additional := by
  rw [← FederationMetadata.ofJson_toJson_eq_iff]
  constructor
  · intro hall
    -- A quorum of one decides: its signature is good for the bytes it signed only.
    obtain ⟨bundle', hread, haccepted'⟩ := hall (soleProof scheme kp bundle.hashBytes)
      (soleSigner scheme kp) (by
        rw [accepted_addQuorumProof_iff, verify_soleProof_iff]
        exact kp.verify_sign bundle.hashBytes)
    rw [readBack_addQuorumProof parse weightOrder order bundle _ (hparse _)] at hread
    cases hmetadata : FederationMetadata.ofJson order bundle.federationMetadata.toJson with
    | error e =>
        rw [hmetadata] at hread
        cases hread
    | ok metadata =>
        rw [hmetadata] at hread
        cases hread
        rw [accepted_addQuorumProof_iff, verify_soleProof_iff] at haccepted'
        have hbytes := (hideal ⟨metadata, .inr hmetadata, rfl⟩ ⟨_, .inl rfl, rfl⟩ haccepted'
          (kp.verify_sign bundle.hashBytes)).2
        exact congrArg Except.ok ((hashBytes_eq_iff _ _).mp hbytes).2
  · intro hmetadata proof allowedSigners haccepted
    refine ⟨bundle.addQuorumProof proof, ?_, haccepted⟩
    rw [readBack_addQuorumProof parse weightOrder order bundle proof (hparse proof), hmetadata]
    rfl

include kp in
/-- When the hash of a bundle depends on its value only, and when a bundle survives
being sent as JSON. -/
theorem calculateHash_and_readBack_iff :
    (∀ bundle bundle' : TrustBundle Json Ed25519Signature,
      bundle.rootDagCid = bundle'.rootDagCid →
      bundle.federationMetadata.Equal bundle'.federationMetadata →
        (bundle.calculateHash (toVec weightOrder) = bundle'.calculateHash (toVec weightOrder) ↔
          bundle.federationMetadata.additional.entries =
            bundle'.federationMetadata.additional.entries)) ∧
      ∀ bundle : TrustBundle Json Ed25519Signature,
        (∀ proof, parse ((bundle.addQuorumProof proof).toJson weightOrder).render =
          .ok ((bundle.addQuorumProof proof).toJson weightOrder)) →
        scheme.IdealOn (messages order bundle) →
          ((∀ proof allowedSigners,
              (bundle.addQuorumProof proof).Accepted scheme weightOrder allowedSigners →
                ∃ bundle',
                  (bundle.addQuorumProof proof).readBack parse weightOrder order = .ok bundle' ∧
                    bundle'.Accepted scheme weightOrder allowedSigners) ↔
            (∀ key ∈ bundle.federationMetadata.additional, key ∉ FederationMetadata.fieldNames) ∧
              order.entries bundle.federationMetadata.additional.toFinmap =
                bundle.federationMetadata.additional) := by
  refine ⟨calculateHash_eq_iff weightOrder, ?_⟩
  intro bundle hparse hideal
  exact accepted_readBack_iff kp parse weightOrder order bundle hparse hideal

end Signed

noncomputable def parseRendered (bytes : List UInt8) : ReadIdentity Json :=
  open Classical in
  if h : ∃ json : Json, json.render = bytes then .ok h.choose
  else .error (.malformed "expected value")

theorem parseRendered_render (json : Json) : parseRendered json.render = .ok json := by
  have h : ∃ json' : Json, json'.render = json.render := ⟨json, rfl⟩
  rw [parseRendered, dif_pos h, render_injective h.choose_spec]

def bundleWith (additional : AList fun _ : String => Json) :
    TrustBundle Json Ed25519Signature where
  rootDagCid := "root"
  federationMetadata := { name := "federation", description := none, version := "1", additional }
  quorumProof := none

def twoEntries : AList fun _ : String => Json :=
  ⟨[⟨"region", .string "north"⟩, ⟨"sector", .string "energy"⟩],
    show ["region", "sector"].Nodup by decide⟩

noncomputable def twoEntriesSigned : TrustBundle Json Ed25519Signature :=
  (bundleWith twoEntries).addQuorumProof (soleProof _
    (basePointKeyPair (bundleWith twoEntries).hashBytes) (bundleWith twoEntries).hashBytes)

/-- The receiver iterates the entries as they were sent. -/
theorem twoEntries_readBack :
    ∃ bundle', twoEntriesSigned.readBack parseRendered (HashMap.Order.arbitrary Did UInt16)
        (HashMap.Order.listing twoEntries) = .ok bundle' ∧
      bundle'.Accepted (markScheme (bundleWith twoEntries).hashBytes)
        (HashMap.Order.arbitrary Did UInt16)
          (soleSigner _ (basePointKeyPair (bundleWith twoEntries).hashBytes)) := by
  have hcondition : (∀ key ∈ (bundleWith twoEntries).federationMetadata.additional,
      key ∉ FederationMetadata.fieldNames) ∧
        (HashMap.Order.listing twoEntries).entries
          (bundleWith twoEntries).federationMetadata.additional.toFinmap =
            (bundleWith twoEntries).federationMetadata.additional := by
    refine ⟨?_, HashMap.Order.entries_listing twoEntries⟩
    have hkeys : ∀ key ∈ ["region", "sector"], key ∉ FederationMetadata.fieldNames := by decide
    exact hkeys
  refine ((calculateHash_and_readBack_iff (basePointKeyPair (bundleWith twoEntries).hashBytes)
    parseRendered (HashMap.Order.arbitrary Did UInt16)
      (HashMap.Order.listing twoEntries)).2 (bundleWith twoEntries)
        (fun proof => parseRendered_render _) ?_).mpr hcondition _ _ ?_
  · apply (idealOn_markScheme (bundleWith twoEntries).hashBytes []).mono
    rintro message ⟨metadata, rfl | hmetadata, rfl⟩
    · exact .inl rfl
    · rw [(FederationMetadata.ofJson_toJson_eq_iff _ _).mpr hcondition] at hmetadata
      rw [← Except.ok.inj hmetadata]
      exact .inl rfl
  · rw [accepted_addQuorumProof_iff, verify_soleProof_iff]
    exact KeyPair.verify_sign _ _

/-- The same two entries, iterated the other way round. -/
def swappedEntries : AList fun _ : String => Json :=
  ⟨[⟨"sector", .string "energy"⟩, ⟨"region", .string "north"⟩],
    show ["sector", "region"].Nodup by decide⟩

/-- The hash of a bundle is not a function of its value. -/
theorem calculateHash_twoEntries_ne :
    (bundleWith twoEntries).rootDagCid = (bundleWith swappedEntries).rootDagCid ∧
      (bundleWith twoEntries).federationMetadata.Equal
        (bundleWith swappedEntries).federationMetadata ∧
      (bundleWith twoEntries).calculateHash (toVec (HashMap.Order.arbitrary Did UInt16)) ≠
        (bundleWith swappedEntries).calculateHash
          (toVec (HashMap.Order.arbitrary Did UInt16)) := by
  have hequal : (bundleWith twoEntries).federationMetadata.Equal
      (bundleWith swappedEntries).federationMetadata :=
    ⟨rfl, rfl, rfl, AList.toFinmap_eq.mpr (List.Perm.swap _ _ _)⟩
  refine ⟨rfl, hequal, ?_⟩
  intro h
  have hentries := (calculateHash_eq_iff _ (bundleWith twoEntries) (bundleWith swappedEntries)
    rfl hequal).mp h
  have hkeys : ["region", "sector"] = ["sector", "region"] :=
    congrArg (List.map Sigma.fst) hentries
  exact absurd hkeys (by decide)

end TrustBundle

end Identity

end Icn
