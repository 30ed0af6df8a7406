import Icn.Foundation.Codec.Base58
import Icn.Identity.Did

/-!
# One key, one identifier

`new_ed25519` writes a key to the base 58 behind `did:key:`, and parsing finds it again.
The way back is not one to one: parsing takes every base that the decoder knows, and it
does not look behind the third part. A text is that of its key exactly if it has the form
that is documented, `did:key:z…`; and every text that is accepted has a second one that is
accepted for the same key (`fromStr_append_part`).
-/

open Foundation

namespace Icn

namespace Identity

/-- A decoder that knows the base 58, which has the code `z`, with the encoder for it. A
text to this base is that of what it is decoded to. -/
structure Base58Library extends DidLibrary where
  encode : List UInt8 → String
  code_encode : ∀ data, ∃ text, (encode data).toList = 'z' :: text
  colon_notMem_encode : ∀ data, ':' ∉ (encode data).toList
  decode_encode : ∀ data, decode (encode data) = .ok data
  encode_of_decode : ∀ {text data}, decode (String.ofList ('z' :: text)) = .ok data →
    encode data = String.ofList ('z' :: text)

/-- A public key: bytes that the check lets pass. -/
structure Ed25519VerifyingKey (lib : DidLibrary) where
  bytes : List UInt8
  length_bytes : bytes.length = ed25519KeyLength
  valid : lib.verifyingKey bytes = .ok ()

def Did.newEd25519 (lib : Base58Library) (pk : Ed25519VerifyingKey lib.toDidLibrary) : Did :=
  ⟨"did:key:" ++ lib.encode (ed25519MulticodecPrefix :: pk.bytes)⟩

/-- The form that is documented: `did:key:z…`, and no further part. -/
def DocumentedForm (s : String) : Prop :=
  ∃ text, s.toList.splitOn ':' = ["did".toList, "key".toList, 'z' :: text]

/-- The text denotes a key, and it is the one that is made for it. -/
def Canonical (lib : Base58Library) (s : String) : Prop :=
  ∃ pk : Ed25519VerifyingKey lib.toDidLibrary,
    Did.toEd25519 lib.toDidLibrary ⟨s⟩ = .ok pk.bytes ∧ (Did.newEd25519 lib pk).value = s

theorem ed25519Key_eq_ok_iff (lib : DidLibrary) (data key : List UInt8) :
    ed25519Key lib data = .ok key ↔ data = ed25519MulticodecPrefix :: key ∧
      key.length = ed25519KeyLength ∧ lib.verifyingKey key = .ok () := by
  cases data with
  | nil => simp [ed25519Key]
  | cons codec keyBytes =>
      rw [ed25519Key]
      by_cases hcodec : codec = ed25519MulticodecPrefix
      · by_cases hlength : keyBytes.length = ed25519KeyLength
        · rw [if_pos hcodec, if_neg (not_not.mpr hlength)]
          cases hvalid : lib.verifyingKey keyBytes with
          | ok u =>
              constructor
              · intro h
                obtain rfl := Except.ok.inj h
                exact ⟨congrArg (· :: keyBytes) hcodec, hlength, hvalid⟩
              · rintro ⟨hdata, -, -⟩
                exact congrArg Except.ok (List.cons.inj hdata).2
          | error source =>
              refine iff_of_false (fun h => by cases h) ?_
              rintro ⟨hdata, -, hkey⟩
              rw [← (List.cons.inj hdata).2, hvalid] at hkey
              cases hkey
        · rw [if_pos hcodec, if_pos hlength]
          refine iff_of_false (fun h => by cases h) ?_
          rintro ⟨hdata, hkey, -⟩
          exact hlength ((List.cons.inj hdata).2 ▸ hkey)
      · rw [if_neg hcodec]
        refine iff_of_false (fun h => by cases h) ?_
        rintro ⟨hdata, -, -⟩
        exact hcodec (List.cons.inj hdata).1

/-- What parsing finds: a third part that is decoded to a key behind its codec. -/
theorem toEd25519_eq_ok_iff (lib : DidLibrary) (did : Did) (key : List UInt8) :
    did.toEd25519 lib = .ok key ↔
      ∃ identifier rest,
        did.value.toList.splitOn ':' = "did".toList :: "key".toList :: identifier :: rest ∧
          identifier ≠ [] ∧
          lib.decode (String.ofList identifier) = .ok (ed25519MulticodecPrefix :: key) ∧
          key.length = ed25519KeyLength ∧ lib.verifyingKey key = .ok () := by
  have htext : ∀ (l : List Char) (s : String), String.ofList l = s ↔ l = s.toList := by
    intro l s
    exact ⟨fun h => by rw [← h, String.toList_ofList], fun h => by rw [h, String.ofList_toList]⟩
  rw [Did.toEd25519]
  by_cases hempty : did.value = ""
  · rw [if_pos hempty, hempty]
    simp
  · rw [if_neg hempty]
    rcases did.value.toList.splitOn ':' with _ | ⟨scheme, _ | ⟨method, _ | ⟨identifier, rest⟩⟩⟩
    · simp
    · simp only [List.map_cons, List.map_nil]
      split <;> simp
    · simp only [List.map_cons, List.map_nil]
      split <;> [skip; split] <;> simp
    · simp only [List.map_cons, htext, ne_eq, ite_not]
      by_cases hscheme : scheme = "did".toList
      · by_cases hmethod : method = "key".toList
        · rw [if_pos hscheme, if_pos hmethod, hscheme, hmethod]
          by_cases hidentifier : identifier = []
          · simp [hidentifier]
          · rw [if_neg (by simpa using hidentifier)]
            cases hdecode : lib.decode (String.ofList identifier) with
            | error source => simp [hdecode]
            | ok data => simp [ed25519Key_eq_ok_iff, hdecode, hidentifier]
        · rw [if_pos hscheme, if_neg hmethod]
          refine iff_of_false (fun h => by cases h) ?_
          rintro ⟨_, _, hparts, -⟩
          exact hmethod (List.cons.inj (List.cons.inj hparts).2).1
      · rw [if_neg hscheme]
        refine iff_of_false (fun h => by cases h) ?_
        rintro ⟨_, _, hparts, -⟩
        exact hscheme (List.cons.inj hparts).1

theorem fromStr_eq_ok_iff (lib : DidLibrary) (s : String) (did : Did) :
    Did.fromStr lib s = .ok did ↔ did = ⟨s⟩ ∧ ∃ key, Did.toEd25519 lib ⟨s⟩ = .ok key := by
  rw [Did.fromStr]
  by_cases hempty : s = ""
  · simp [hempty, Did.toEd25519]
  · rw [if_neg hempty]
    cases Did.toEd25519 lib ⟨s⟩ with
    | ok key => simp [eq_comm]
    | error err => simp

theorem fromStr_append_part {lib : DidLibrary} {s : String} {did : Did}
    (h : Did.fromStr lib s = .ok did) (part : String) :
    Did.fromStr lib (s ++ ":" ++ part) = .ok ⟨s ++ ":" ++ part⟩ ∧
      Did.toEd25519 lib ⟨s ++ ":" ++ part⟩ = did.toEd25519 lib := by
  obtain ⟨rfl, key, hkey⟩ := (fromStr_eq_ok_iff lib s did).mp h
  obtain ⟨identifier, rest, hparts, hdecode⟩ := (toEd25519_eq_ok_iff lib _ key).mp hkey
  have hadded : (s ++ ":" ++ part).toList.splitOn ':' =
      "did".toList :: "key".toList :: identifier :: (rest ++ part.toList.splitOn ':') := by
    have happend : (s ++ ":" ++ part).toList = s.toList ++ ':' :: part.toList := by simp
    rw [happend, List.splitOn_append_cons_self, hparts]
    rfl
  have hsame : Did.toEd25519 lib ⟨s ++ ":" ++ part⟩ = .ok key :=
    (toEd25519_eq_ok_iff lib _ key).mpr ⟨identifier, _, hadded, hdecode⟩
  exact ⟨(fromStr_eq_ok_iff lib _ _).mpr ⟨rfl, key, hsame⟩, hsame.trans hkey.symm⟩

section Canonical

variable (lib : Base58Library)

theorem splitOn_newEd25519 (pk : Ed25519VerifyingKey lib.toDidLibrary) :
    (Did.newEd25519 lib pk).value.toList.splitOn ':' =
      ["did".toList, "key".toList,
        (lib.encode (ed25519MulticodecPrefix :: pk.bytes)).toList] := by
  have hparts : (Did.newEd25519 lib pk).value.toList =
      [':'].intercalate ["did".toList, "key".toList,
        (lib.encode (ed25519MulticodecPrefix :: pk.bytes)).toList] := by
    simp [Did.newEd25519, List.intercalate]
  rw [hparts]
  refine List.splitOn_intercalate ':' ?_ (by simp)
  intro part hpart
  simp only [List.mem_cons, List.not_mem_nil, or_false] at hpart
  rcases hpart with rfl | rfl | rfl
  · decide
  · decide
  · exact lib.colon_notMem_encode _

theorem toEd25519_newEd25519 (pk : Ed25519VerifyingKey lib.toDidLibrary) :
    (Did.newEd25519 lib pk).toEd25519 lib.toDidLibrary = .ok pk.bytes := by
  refine (toEd25519_eq_ok_iff _ _ _).mpr
    ⟨_, [], splitOn_newEd25519 lib pk, ?_, ?_, pk.length_bytes, pk.valid⟩
  · obtain ⟨text, htext⟩ := lib.code_encode (ed25519MulticodecPrefix :: pk.bytes)
    simp [htext]
  · rw [String.ofList_toList]
    exact lib.decode_encode _

theorem documentedForm_newEd25519 (pk : Ed25519VerifyingKey lib.toDidLibrary) :
    DocumentedForm (Did.newEd25519 lib pk).value := by
  obtain ⟨text, htext⟩ := lib.code_encode (ed25519MulticodecPrefix :: pk.bytes)
  exact ⟨text, by rw [splitOn_newEd25519, htext]⟩

theorem eq_newEd25519_of_documentedForm {s : String} (hform : DocumentedForm s)
    (pk : Ed25519VerifyingKey lib.toDidLibrary)
    (hkey : Did.toEd25519 lib.toDidLibrary ⟨s⟩ = .ok pk.bytes) :
    (Did.newEd25519 lib pk).value = s := by
  obtain ⟨text, hparts⟩ := hform
  obtain ⟨identifier, rest, hparts', -, hdecode, -⟩ := (toEd25519_eq_ok_iff _ _ _).mp hkey
  have hidentifier : 'z' :: text = identifier := by
    rw [hparts] at hparts'
    simp only [List.cons.injEq] at hparts'
    exact hparts'.2.2.1
  rw [← hidentifier] at hdecode
  have hencoded : (lib.encode (ed25519MulticodecPrefix :: pk.bytes)).toList = 'z' :: text := by
    rw [lib.encode_of_decode hdecode]
    exact String.toList_ofList
  have hsplit : (Did.newEd25519 lib pk).value.toList.splitOn ':' = s.toList.splitOn ':' := by
    rw [splitOn_newEd25519, hencoded, hparts]
  have hjoin := congrArg [':'].intercalate hsplit
  rw [List.intercalate_splitOn, List.intercalate_splitOn] at hjoin
  exact String.toList_inj.mp hjoin

theorem exists_verifyingKey {s : String} {did : Did}
    (h : Did.fromStr lib.toDidLibrary s = .ok did) :
    ∃ pk : Ed25519VerifyingKey lib.toDidLibrary,
      Did.toEd25519 lib.toDidLibrary ⟨s⟩ = .ok pk.bytes := by
  obtain ⟨-, key, hkey⟩ := (fromStr_eq_ok_iff _ s did).mp h
  obtain ⟨-, -, -, -, -, hlength, hvalid⟩ := (toEd25519_eq_ok_iff _ _ _).mp hkey
  exact ⟨⟨key, hlength, hvalid⟩, hkey⟩

/-- **Identifiers are canonical**, as far as they have the documented form: keys are found
again; a text that is accepted is that of its key exactly if it has this form; and two
texts of this form do not denote the same key. -/
theorem canonical_iff :
    (∀ pk : Ed25519VerifyingKey lib.toDidLibrary,
      (Did.newEd25519 lib pk).toEd25519 lib.toDidLibrary = .ok pk.bytes) ∧
    (∀ s did, Did.fromStr lib.toDidLibrary s = .ok did →
      (Canonical lib s ↔ DocumentedForm s)) ∧
    ∀ s s' did did', Did.fromStr lib.toDidLibrary s = .ok did →
      Did.fromStr lib.toDidLibrary s' = .ok did' → DocumentedForm s → DocumentedForm s' →
      did.toEd25519 lib.toDidLibrary = did'.toEd25519 lib.toDidLibrary → did = did' := by
  refine ⟨toEd25519_newEd25519 lib, ?_, ?_⟩
  · intro s did h
    constructor
    · rintro ⟨pk, -, rfl⟩
      exact documentedForm_newEd25519 lib pk
    · intro hform
      obtain ⟨pk, hkey⟩ := exists_verifyingKey lib h
      exact ⟨pk, hkey, eq_newEd25519_of_documentedForm lib hform pk hkey⟩
  · intro s s' did did' h h' hform hform' hsame
    obtain ⟨pk, hkey⟩ := exists_verifyingKey lib h
    obtain ⟨rfl, -⟩ := (fromStr_eq_ok_iff _ s did).mp h
    obtain ⟨rfl, -⟩ := (fromStr_eq_ok_iff _ s' did').mp h'
    rw [← eq_newEd25519_of_documentedForm lib hform pk hkey,
      ← eq_newEd25519_of_documentedForm lib hform' pk (hsame ▸ hkey)]

end Canonical

def multibaseDecode (s : String) : Except String (List UInt8) :=
  match s.toList with
  | 'z' :: text =>
      match Codec.base58Decode text with
      | some bytes => .ok bytes
      | none => .error "Invalid base string"
  | _ => base16Library.decode s

theorem multibaseDecode_base58 (text : List Char) :
    multibaseDecode (String.ofList ('z' :: text)) =
      (Codec.base58Decode text).elim (.error "Invalid base string") .ok := by
  simp only [multibaseDecode, String.toList_ofList]
  cases Codec.base58Decode text <;> rfl

/-- The bases 58 and 16, with the keys of `base16Library`. -/
def multibaseLibrary : Base58Library where
  decode := multibaseDecode
  verifyingKey := base16Library.verifyingKey
  encode data := String.ofList ('z' :: Codec.base58Encode data)
  code_encode data := ⟨Codec.base58Encode data, String.toList_ofList⟩
  colon_notMem_encode data := by
    rw [String.toList_ofList]
    intro hcolon
    rcases List.mem_cons.mp hcolon with hcolon | hcolon
    · exact absurd hcolon (by decide)
    · exact absurd (Codec.mem_base58Alphabet_of_mem hcolon) (by decide)
  decode_encode data := by
    rw [multibaseDecode_base58, Codec.base58Decode_base58Encode]
    rfl
  encode_of_decode := by
    intro text data h
    rw [multibaseDecode_base58] at h
    cases htext : Codec.base58Decode text with
    | none =>
        rw [htext] at h
        cases h
    | some bytes =>
        rw [htext] at h
        obtain rfl := Except.ok.inj h
        rw [Codec.base58Encode_of_base58Decode htext]

theorem length_basePoint : ((0x58 : UInt8) :: List.replicate 31 0x66).length = 32 := by
  rw [List.length_cons, List.length_replicate]

def basePointKey : Ed25519VerifyingKey multibaseLibrary.toDidLibrary where
  bytes := 0x58 :: List.replicate 31 0x66
  length_bytes := length_basePoint
  valid := rfl

/-- The identifier of the base point is accepted, and it is that of its key. -/
theorem canonical_newEd25519_basePointKey :
    Canonical multibaseLibrary (Did.newEd25519 multibaseLibrary basePointKey).value :=
  ((canonical_iff multibaseLibrary).2.1 _ _
      ((fromStr_eq_ok_iff _ _ _).mpr
        ⟨rfl, _, toEd25519_newEd25519 multibaseLibrary basePointKey⟩)).mpr
    (documentedForm_newEd25519 multibaseLibrary basePointKey)

/-- To the base 16 the base point is accepted as well. -/
theorem not_canonical_basePointDid :
    Did.fromStr multibaseLibrary.toDidLibrary basePointDid = .ok ⟨basePointDid⟩ ∧
      Did.toEd25519 multibaseLibrary.toDidLibrary ⟨basePointDid⟩ =
        (Did.newEd25519 multibaseLibrary basePointKey).toEd25519 multibaseLibrary.toDidLibrary ∧
      ¬ Canonical multibaseLibrary basePointDid := by
  refine ⟨rfl, ?_, ?_⟩
  · rw [toEd25519_newEd25519]
    rfl
  · rintro ⟨pk, -, hvalue⟩
    obtain ⟨text, hparts⟩ := documentedForm_newEd25519 multibaseLibrary pk
    have hcode : ((basePointDid.toList.splitOn ':').getD 2 []).head? = some 'f' := by decide
    rw [← hvalue, hparts] at hcode
    cases hcode

end Identity

end Icn
