import Icn.Types.CredentialJson
import Icn.Types.Quorum

/-!
# Bundles of credentials

A `TrustBundle` can be checked in two ways. `verifyIn` looks at the ids and the signers
itself and applies the configuration it is given; `validateQuorumIn` takes the rule out of
the text that the bundle carries and leaves all checks to it.

The rule survives its text (`fromStr_toText`), so both ways come to the same outcome on
bundles whose credentials have distinct ids (`bundle_checks_agree`).
-/

open Foundation Codec Json

namespace Icn

namespace Types

open Identity

namespace QuorumRule

def weightsToJson (order : HashMap.Order String UInt32) (weights : HashMap String UInt32) : Json :=
  .object ((order.entries weights).entries.map fun e => (e.1, .number (Number.ofNat e.2.toNat)))

def toJson (order : HashMap.Order String UInt32) : QuorumRule → Json
  | .majority => .object [("type", .string "Majority")]
  | .threshold percentage => .object [("type", .string "Threshold"),
      ("value", .number (Number.ofNat percentage.toNat))]
  | .weighted weights required => .object [("type", .string "Weighted"),
      ("value", .object [("weights", weightsToJson order weights),
        ("threshold", .number (Number.ofNat required.toNat))])]

def readWeight (entry : String × Json) : ReadTypes (String × UInt32) := do
  let weight ← readU32 entry.2
  return (entry.1, weight)

def weightsOfJson : Json → ReadTypes (HashMap String UInt32)
  | .object entries => (entries.mapM readWeight).map HashMap.ofEntries
  | _ => .error (.invalidType "a map")

structure WeightedFields where
  weights : Option (HashMap String UInt32)
  threshold : Option UInt32

def visitWeighted (fields : WeightedFields) (entry : String × Json) : ReadTypes WeightedFields :=
  match entry with
  | ("weights", value) => do
      let weights ← readField "weights" fields.weights weightsOfJson value
      return { fields with weights }
  | ("threshold", value) => do
      let threshold ← readField "threshold" fields.threshold readU32 value
      return { fields with threshold }
  | _ => .ok fields

def weightedOfJson : Json → ReadTypes QuorumRule
  | .object entries => do
      let fields ← entries.foldlM visitWeighted ⟨none, none⟩
      let weights ← required "weights" fields.weights
      let threshold ← required "threshold" fields.threshold
      return .weighted weights threshold
  | _ => .error (.invalidType "struct variant QuorumRule::Weighted")

structure Fields where
  tag : Option String
  content : Option Json

def visitEntry (fields : Fields) (entry : String × Json) : ReadTypes Fields :=
  match entry with
  | ("type", value) => do
      let tag ← readField "type" fields.tag readString value
      return { fields with tag }
  | ("value", value) => do
      let content ← readField "value" fields.content .ok value
      return { fields with content }
  | _ => .ok fields

def ofContent (tag : String) (content : Option Json) : ReadTypes QuorumRule :=
  match tag, content with
  | "Majority", none => .ok .majority
  | "Majority", some .null => .ok .majority
  | "Majority", some _ => .error (.invalidType "unit variant QuorumRule::Majority")
  | "Threshold", some value => (readU8 value).map .threshold
  | "Threshold", none => .error (.missingField "value")
  | "Weighted", some value => weightedOfJson value
  | "Weighted", none => .error (.missingField "value")
  | variant, _ => .error (.unknownVariant variant)

def ofJson : Json → ReadTypes QuorumRule
  | .object entries => do
      let fields ← entries.foldlM visitEntry ⟨none, none⟩
      let tag ← required "type" fields.tag
      ofContent tag fields.content
  | _ => .error (.invalidType "adjacently tagged enum QuorumRule")

def fromStr (parser : Parser Empty) (text : String) : ReadTypes QuorumRule := do
  let json ← parser.parse text
  ofJson json

theorem weightsOfJson_weightsToJson (order : HashMap.Order String UInt32)
    (weights : HashMap String UInt32) :
    weightsOfJson (weightsToJson order weights) = .ok weights := by
  have hread : ((order.entries weights).entries.map fun e =>
        (e.1, Json.number (Number.ofNat e.2.toNat))).mapM readWeight =
      .ok ((order.entries weights).entries.map fun e => (e.1, e.2)) := by
    apply Fallible.mapM_map_eq_ok
    intro e _
    rw [readWeight, readU32_number]
    rfl
  rw [weightsToJson, weightsOfJson, hread, Except.map, HashMap.ofEntries_entries,
    order.toFinmap_entries]

theorem weightedOfJson_eq_ok (order : HashMap.Order String UInt32)
    (weights : HashMap String UInt32) (threshold : UInt32) :
    weightedOfJson (.object [("weights", weightsToJson order weights),
      ("threshold", .number (Number.ofNat threshold.toNat))]) =
        .ok (.weighted weights threshold) := by
  simp only [weightedOfJson, List.foldlM_cons, List.foldlM_nil, visitWeighted, readField,
    weightsOfJson_weightsToJson, readU32_number, Except.map, bind, Except.bind, pure, Except.pure,
    required]

theorem ofJson_toJson (order : HashMap.Order String UInt32) (rule : QuorumRule) :
    ofJson (rule.toJson order) = .ok rule := by
  cases rule with
  | majority => rfl
  | threshold percentage =>
      simp only [toJson, ofJson, List.foldlM_cons, List.foldlM_nil, visitEntry, readField,
        readString, ofContent, readU8_number, Except.map, bind, Except.bind, pure, Except.pure,
        required]
  | weighted weights threshold =>
      simp only [toJson, ofJson, List.foldlM_cons, List.foldlM_nil, visitEntry, readField,
        readString, ofContent, weightedOfJson_eq_ok, Except.map, bind, Except.bind, pure,
        Except.pure, required]

theorem depth_toJson_lt (order : HashMap.Order String UInt32) (rule : QuorumRule) :
    (rule.toJson order).depth < recursionLimit := by
  have hweights : ∀ weights, (weightsToJson order weights).depth ≤ 1 := fun weights =>
    depth_object_le_iff.mpr (List.forall_mem_map.mpr fun _ _ => Nat.zero_le _)
  have hrule : (rule.toJson order).depth ≤ 3 := by
    cases rule with
    | majority => exact show 1 ≤ 3 by decide
    | threshold percentage => exact show 1 ≤ 3 by decide
    | weighted weights threshold =>
        rw [toJson, depth_object_le_iff, List.forall_mem_cons, List.forall_mem_singleton,
          depth_object_le_iff, List.forall_mem_cons, List.forall_mem_singleton]
        exact ⟨Nat.zero_le _, hweights weights, Nat.zero_le _⟩
  exact hrule.trans_lt (by decide)

theorem mapNumbers_toJson (parser : Parser Empty) (order : HashMap.Order String UInt32)
    (rule : QuorumRule) : (rule.toJson order).mapNumbers parser.reread = rule.toJson order := by
  have hword : ∀ word : UInt32, parser.reread (Number.ofNat word.toNat) =
      Number.ofNat word.toNat := fun word =>
    parser.reread_ofNat _ (word.toNat_lt.trans (by decide))
  cases rule with
  | majority => rfl
  | threshold percentage =>
      have hpercentage := parser.reread_ofNat percentage.toNat
        (percentage.toNat_lt.trans (by decide))
      simp only [toJson, mapNumbers_object, mapValues_cons, mapValues_nil, mapNumbers_string,
        mapNumbers_number, hpercentage]
  | weighted weights threshold =>
      have hweights : (weightsToJson order weights).mapNumbers parser.reread =
          weightsToJson order weights := by
        rw [weightsToJson, mapNumbers_object]
        refine congrArg Json.object (mapValues_eq_self (List.forall_mem_map.mpr fun e _ => ?_))
        exact congrArg Json.number (hword e.2)
      simp only [toJson, mapNumbers_object, mapValues_cons, mapValues_nil, mapNumbers_string,
        mapNumbers_number, hweights, hword]

theorem fromStr_toText (parser : Parser Empty) (order : HashMap.Order String UInt32)
    (rule : QuorumRule) : fromStr parser (rule.toJson order).toText = .ok rule := by
  rw [fromStr, parser.parse_toText _ (depth_toJson_lt order rule), mapNumbers_toJson]
  exact ofJson_toJson order rule

end QuorumRule

/-- A set of credentials for validating a governance event. -/
structure TrustBundle (kind : MapKind) where
  id : String
  credentials : List (VerifiableCredential kind)
  quorumRule : String
  created : String
  expires : Option String

variable {kind : MapKind}

/-- The pass over the credentials: ids must not repeat, issuers are collected. -/
def collectSigners (uniqueIds : Finset String) :
    List (VerifiableCredential kind) → Except TrustError (List String)
  | [] => .ok []
  | credential :: rest =>
      if credential.id ∈ uniqueIds then .error (.localCredentialInBundle .invalidStructure)
      else do
        let signers ← collectSigners (insert credential.id uniqueIds) rest
        return credential.issuer :: signers

namespace TrustBundle

def newWithProof (order : HashMap.Order String UInt32) (id : String)
    (credentials : List (VerifiableCredential kind)) (quorumRule : QuorumRule) (now : String) :
    TrustBundle kind where
  id := id
  credentials := credentials
  quorumRule := (quorumRule.toJson order).toText
  created := now
  expires := none

def extractSigners (bundle : TrustBundle kind) : List String :=
  bundle.credentials.map VerifiableCredential.issuer

variable (mode : Overflow) (lib : DidLibrary)

/-- `none` is a stopped program. -/
def verifyIn (bundle : TrustBundle kind) (config : QuorumConfig) :
    Option (Except TrustError Bool) :=
  match collectSigners ∅ bundle.credentials with
  | .error e => some (.error e)
  | .ok signers =>
      if signers.toFinset.card ≠ signers.length then
        some (.error (.quorumProcessing .duplicateSigner))
      else config.validateQuorumIn mode lib signers

def validateQuorumIn (parser : Parser Empty) (bundle : TrustBundle kind)
    (authorizedDids : List String) : Option (Except TrustError Bool) :=
  match QuorumRule.fromStr parser bundle.quorumRule with
  | .error source => some (.error (.identity (.deserialization source)))
  | .ok quorumRule =>
      QuorumConfig.validateQuorumIn mode lib ⟨quorumRule, authorizedDids⟩ bundle.extractSigners

end TrustBundle

/-- The pass ends well exactly if no id repeats or was seen before. -/
theorem collectSigners_eq_ok_iff (uniqueIds : Finset String)
    (credentials : List (VerifiableCredential kind)) (signers : List String) :
    collectSigners uniqueIds credentials = .ok signers ↔
      ((∀ credential ∈ credentials, credential.id ∉ uniqueIds) ∧
          (credentials.map VerifiableCredential.id).Nodup) ∧
        signers = credentials.map VerifiableCredential.issuer := by
  induction credentials generalizing uniqueIds signers with
  | nil =>
      rw [collectSigners]
      simp only [List.not_mem_nil, false_implies, implies_true, List.map_nil, List.nodup_nil,
        and_self, true_and, Except.ok.injEq]
      exact eq_comm
  | cons credential rest ih =>
      rw [collectSigners, List.forall_mem_cons, List.map_cons, List.nodup_cons, List.map_cons]
      by_cases hid : credential.id ∈ uniqueIds
      · rw [if_pos hid]
        exact iff_of_false (fun h => by cases h) fun h => h.1.1.1 hid
      · rw [if_neg hid, Fallible.bind_eq_ok_iff]
        simp only [ih, Finset.mem_insert, not_or]
        constructor
        · rintro ⟨signers', ⟨⟨hfresh, hnodup⟩, rfl⟩, hsigners⟩
          refine ⟨⟨⟨hid, fun other hother => (hfresh other hother).2⟩, ?_, hnodup⟩,
            (Except.ok.inj hsigners).symm⟩
          intro hmem
          obtain ⟨other, hother, hsame⟩ := List.mem_map.mp hmem
          exact (hfresh other hother).1 hsame
        · rintro ⟨⟨⟨-, hfresh⟩, hnew, hnodup⟩, rfl⟩
          refine ⟨_, ⟨⟨fun other hother => ⟨?_, hfresh other hother⟩, hnodup⟩, rfl⟩, rfl⟩
          intro hsame
          exact hnew (List.mem_map.mpr ⟨other, hother, hsame⟩)

namespace TrustBundle

variable (mode : Overflow) (lib : DidLibrary)

def DistinctIds (bundle : TrustBundle kind) : Prop :=
  (bundle.credentials.map VerifiableCredential.id).Nodup

theorem collectSigners_of_distinctIds {bundle : TrustBundle kind} (h : bundle.DistinctIds) :
    collectSigners ∅ bundle.credentials = .ok bundle.extractSigners :=
  (collectSigners_eq_ok_iff ∅ _ _).mpr ⟨⟨fun _ _ => Finset.notMem_empty _, h⟩, rfl⟩

theorem verifyIn_of_not_distinctIds {bundle : TrustBundle kind} (h : ¬ bundle.DistinctIds)
    (config : QuorumConfig) : ∃ e, bundle.verifyIn mode lib config = some (.error e) := by
  rw [verifyIn]
  cases hsigners : collectSigners ∅ bundle.credentials with
  | error e => exact ⟨e, rfl⟩
  | ok signers => exact absurd ((collectSigners_eq_ok_iff ∅ _ _).mp hsigners).1.2 h

theorem verifyIn_of_distinctIds {bundle : TrustBundle kind} (h : bundle.DistinctIds)
    (config : QuorumConfig) :
    bundle.verifyIn mode lib config = config.validateQuorumIn mode lib bundle.extractSigners ∨
      (∃ e, bundle.verifyIn mode lib config = some (.error e)) ∧
        ∃ e, config.validateQuorumIn mode lib bundle.extractSigners = some (.error e) := by
  rw [verifyIn, collectSigners_of_distinctIds h]
  dsimp only
  by_cases hdistinct : bundle.extractSigners.Nodup
  · rw [if_neg (not_not.mpr ((card_toFinset_eq_iff _).mpr hdistinct))]
    exact .inl rfl
  · rw [if_pos (mt (card_toFinset_eq_iff _).mp hdistinct)]
    exact .inr ⟨⟨_, rfl⟩, validateQuorumIn_of_not_eligible mode lib fun h => hdistinct h.2⟩

theorem validateQuorumIn_of_quorumRule (parser : Parser Empty)
    {order : HashMap.Order String UInt32} {bundle : TrustBundle kind} {config : QuorumConfig}
    (h : bundle.quorumRule = (config.rule.toJson order).toText) :
    bundle.validateQuorumIn mode lib parser config.authorizedDids =
      config.validateQuorumIn mode lib bundle.extractSigners := by
  rw [validateQuorumIn, h, QuorumRule.fromStr_toText]

end TrustBundle

/-- A rule survives its text, and the two checks of a bundle that carries the text of the
rule come to the same outcome: where the ids are distinct in any case, and otherwise where
the bundle verifies. -/
theorem bundle_checks_agree (kind : MapKind) (mode : Overflow) (lib : DidLibrary)
    (parser : Parser Empty) (order : HashMap.Order String UInt32) :
    (∀ rule : QuorumRule, QuorumRule.fromStr parser (rule.toJson order).toText = .ok rule) ∧
      ∀ (bundle : TrustBundle kind) (config : QuorumConfig),
        bundle.quorumRule = (config.rule.toJson order).toText →
          (bundle.DistinctIds →
            (∀ met, bundle.verifyIn mode lib config = some (.ok met) ↔
              bundle.validateQuorumIn mode lib parser config.authorizedDids = some (.ok met)) ∧
            ((∃ e, bundle.verifyIn mode lib config = some (.error e)) ↔
              ∃ e, bundle.validateQuorumIn mode lib parser config.authorizedDids =
                some (.error e)) ∧
            (bundle.verifyIn mode lib config = none ↔
              bundle.validateQuorumIn mode lib parser config.authorizedDids = none)) ∧
          ∀ met, bundle.verifyIn mode lib config = some (.ok met) →
            bundle.validateQuorumIn mode lib parser config.authorizedDids = some (.ok met) := by
  refine ⟨QuorumRule.fromStr_toText parser order, fun bundle config hrule => ?_⟩
  rw [bundle.validateQuorumIn_of_quorumRule mode lib parser hrule]
  have hagree : bundle.DistinctIds →
      (∀ met, bundle.verifyIn mode lib config = some (.ok met) ↔
        config.validateQuorumIn mode lib bundle.extractSigners = some (.ok met)) ∧
      ((∃ e, bundle.verifyIn mode lib config = some (.error e)) ↔
        ∃ e, config.validateQuorumIn mode lib bundle.extractSigners = some (.error e)) ∧
      (bundle.verifyIn mode lib config = none ↔
        config.validateQuorumIn mode lib bundle.extractSigners = none) := by
    intro hids
    rcases bundle.verifyIn_of_distinctIds mode lib hids config with heq | ⟨⟨e, he⟩, e', he'⟩
    · rw [heq]
      exact ⟨fun _ => Iff.rfl, Iff.rfl, Iff.rfl⟩
    · simp [he, he']
  refine ⟨hagree, fun met hmet => ?_⟩
  by_cases hids : bundle.DistinctIds
  · exact ((hagree hids).1 met).mp hmet
  · obtain ⟨e, he⟩ := bundle.verifyIn_of_not_distinctIds mode lib hids config
    rw [he] at hmet
    cases hmet

def unequalRule : QuorumConfig where
  rule := .weighted (((∅ : HashMap String UInt32).insert "did:key:issuer1" 3).insert
    "did:key:issuer2" 2) 5
  authorizedDids := ["did:key:issuer1", "did:key:issuer2"]

noncomputable def pairBundle : TrustBundle .key :=
  .newWithProof (HashMap.Order.arbitrary String UInt32) "bundle1"
    [withoutClaims .key,
      { withoutClaims .key with id := "cred2", issuer := "did:key:issuer2" }]
    unequalRule.rule "2023-01-01T00:00:00Z"

theorem bundle_checks_agree_pair :
    pairBundle.validateQuorumIn .stop base16Library (Parser.exact Empty)
      unequalRule.authorizedDids = some (.ok true) := by
  have hverify : pairBundle.verifyIn .stop base16Library unequalRule = some (.ok true) := rfl
  have hids : pairBundle.DistinctIds := show ["cred1", "cred2"].Nodup by decide
  exact (((bundle_checks_agree .key .stop base16Library (Parser.exact Empty)
    (HashMap.Order.arbitrary String UInt32)).2 pairBundle unequalRule rfl).1 hids).1 true
      |>.mp hverify

end Types

end Icn
