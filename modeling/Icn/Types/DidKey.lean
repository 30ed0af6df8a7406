import Icn.Foundation.Codec.Base64
import Icn.Foundation.Codec.Slice
import Icn.Types.Error

/-!
# The did:key helper

`keyToDid` writes the base 64 of the multicodec and the key behind `did:key:z`,
nine bytes. `didToKey` cuts the text at byte ten. It leaves out the first digit of
every text that `keyToDid` writes, and stops the program where byte ten is behind
the end or inside a character.

`didToKey_eq_ok_iff` and `didToKey_eq_none_iff` say on which texts it does either.
-/

open Foundation Codec

namespace Icn

namespace Types

def keyToDid (publicKeyBytes : List UInt8) : String :=
  let encoded := base64Encode ([0xed, 0x01] ++ publicKeyBytes)
  String.ofList ("did:key:z".toList ++ encoded)

/-- `none` is a stopped program. -/
def didToKey (didString : String) : Option (Except CryptoError (List UInt8)) :=
  if "did:key:z".toList.isPrefixOf didString.toList then
    (sliceFrom 10 didString.toList).map fun encoded =>
      match base64Decode encoded with
      | none => .error .keyFormatBase64
      | some decoded =>
          if decoded.length < 3 ∨ decoded[0]? ≠ some 0xed ∨ decoded[1]? ≠ some 0x01 then
            .error (.keyFormatGeneric "Invalid multicodec prefix after decoding DID key")
          else .ok (decoded.drop 2)
  else
    some (.error (.keyFormatGeneric "Invalid DID key format: must start with did:key:z"))

theorem toList_keyToDid (k : List UInt8) :
    (keyToDid k).toList = "did:key:z".toList ++ base64Encode (0xed :: 0x01 :: k) :=
  String.toList_ofList

theorem byteLength_start : byteLength "did:key:z".toList = 9 := by decide

theorem sliceFrom_ten (rest : List Char) :
    sliceFrom 10 ("did:key:z".toList ++ rest) = sliceFrom 1 rest := by
  have h := sliceFrom_append 1 "did:key:z".toList rest
  rw [byteLength_start] at h
  exact h

theorem decoded_iff {decoded k : List UInt8} :
    (¬ (decoded.length < 3 ∨ decoded[0]? ≠ some 0xed ∨ decoded[1]? ≠ some 0x01) ∧
      decoded.drop 2 = k) ↔ k ≠ [] ∧ decoded = 0xed :: 0x01 :: k := by
  match decoded with
  | [] => simp
  | [a] => simp
  | a :: b :: rest =>
      cases rest with
      | nil =>
          simp only [List.length_cons, List.length_nil, List.drop_succ_cons, List.drop_zero]
          constructor
          · rintro ⟨h, -⟩
            exact absurd (.inl (by decide)) h
          · rintro ⟨hk, h⟩
            simp only [List.cons.injEq] at h
            exact absurd h.2.2.symm hk
      | cons c rest =>
          simp only [List.length_cons, List.getElem?_cons_zero, List.getElem?_cons_succ,
            List.drop_succ_cons, List.drop_zero, List.cons.injEq, ne_eq, Option.some.injEq]
          constructor
          · rintro ⟨h, rfl⟩
            simp only [not_or, not_not] at h
            exact ⟨by simp, h.2.1, h.2.2, rfl⟩
          · rintro ⟨-, rfl, rfl, rfl⟩
            refine ⟨?_, rfl⟩
            simp

/-- The keys that are returned: the digits of the multicodec and the key stand behind
one more byte. -/
theorem didToKey_eq_ok_iff {s : String} {k : List UInt8} :
    didToKey s = some (.ok k) ↔ k ≠ [] ∧ ∃ c, c.utf8Size = 1 ∧
      s.toList = "did:key:z".toList ++ c :: base64Encode (0xed :: 0x01 :: k) := by
  constructor
  · intro h
    rw [didToKey] at h
    split at h
    · next hprefix =>
      obtain ⟨rest, hrest⟩ := List.isPrefixOf_iff_prefix.mp hprefix
      rw [← hrest, sliceFrom_ten, Option.map_eq_some_iff] at h
      obtain ⟨encoded, hencoded, h⟩ := h
      obtain ⟨c, hc, rfl⟩ := sliceFrom_one_eq_some_iff.mp hencoded
      split at h
      · cases h
      · next decoded hdecoded =>
        obtain rfl := base64Decode_eq_some_iff.mp hdecoded
        split at h
        · cases h
        · next hguard =>
          obtain ⟨hk, rfl⟩ := decoded_iff.mp ⟨hguard, Except.ok.inj h⟩
          exact ⟨hk, c, hc, hrest.symm⟩
    · cases h
  · rintro ⟨hk, c, hc, hs⟩
    have hslice : sliceFrom 10 s.toList = some (base64Encode (0xed :: 0x01 :: k)) := by
      rw [hs, sliceFrom_ten]
      exact sliceFrom_one_eq_some_iff.mpr ⟨c, hc, rfl⟩
    have hprefix : "did:key:z".toList.isPrefixOf s.toList := by
      rw [hs]
      exact List.isPrefixOf_iff_prefix.mpr (List.prefix_append _ _)
    obtain ⟨hguard, hdrop⟩ := decoded_iff.mpr ⟨hk, rfl⟩
    rw [didToKey, if_pos hprefix, hslice, Option.map_some, base64Decode_base64Encode]
    dsimp only
    rw [if_neg hguard, hdrop]

theorem didToKey_eq_none_iff {s : String} :
    didToKey s = none ↔ ∃ rest, s.toList = "did:key:z".toList ++ rest ∧
      ∀ c tail, rest = c :: tail → c.utf8Size ≠ 1 := by
  rw [didToKey]
  constructor
  · intro h
    split at h
    · next hprefix =>
      obtain ⟨rest, hrest⟩ := List.isPrefixOf_iff_prefix.mp hprefix
      rw [← hrest, sliceFrom_ten, Option.map_eq_none_iff] at h
      refine ⟨rest, hrest.symm, ?_⟩
      rintro c tail rfl hc
      rw [sliceFrom_one_eq_some_iff.mpr ⟨c, hc, rfl⟩] at h
      cases h
    · cases h
  · rintro ⟨rest, hrest, hcut⟩
    have hprefix : "did:key:z".toList.isPrefixOf s.toList := by
      rw [hrest]
      exact List.isPrefixOf_iff_prefix.mpr (List.prefix_append _ _)
    rw [if_pos hprefix, hrest, sliceFrom_ten, Option.map_eq_none_iff,
      Option.eq_none_iff_forall_ne_some]
    intro encoded hencoded
    obtain ⟨c, hc, htail⟩ := sliceFrom_one_eq_some_iff.mp hencoded
    exact hcut c encoded htail hc

theorem base64Encode_multicodec (k : List UInt8) :
    ∃ rest, base64Encode (0xed :: 0x01 :: k) = '7' :: 'Q' :: rest := by
  cases k with
  | nil => exact ⟨_, rfl⟩
  | cons byte k => exact ⟨_, rfl⟩

/-- No text of the encoder is read back, to any key. -/
theorem didToKey_keyToDid_ne_ok (k k' : List UInt8) : didToKey (keyToDid k) ≠ some (.ok k') := by
  intro h
  obtain ⟨-, c, -, htext⟩ := didToKey_eq_ok_iff.mp h
  rw [toList_keyToDid] at htext
  obtain ⟨rest, hrest⟩ := base64Encode_multicodec k
  obtain ⟨rest', hrest'⟩ := base64Encode_multicodec k'
  rw [hrest, hrest'] at htext
  have htail := List.append_cancel_left htext
  simp at htail

/-- No key comes back. The texts on which the decoder does what it should lack the prefix,
or go on with a character of one byte that no digits of the multicodec and a key follow. -/
theorem didToKey_sound_iff (key : List UInt8) (s : String) :
    didToKey (keyToDid key) ≠ some (.ok key) ∧
      (((∃ outcome, didToKey s = some outcome) ∧
          ∀ k, didToKey s = some (.ok k) → s = keyToDid k) ↔
        ∀ rest, s.toList = "did:key:z".toList ++ rest →
          ∃ c tail, rest = c :: tail ∧ c.utf8Size = 1 ∧
            ∀ k, k ≠ [] → tail ≠ base64Encode (0xed :: 0x01 :: k)) := by
  refine ⟨didToKey_keyToDid_ne_ok key key, ?_⟩
  constructor
  · rintro ⟨⟨outcome, houtcome⟩, hsound⟩ rest hrest
    have hrun : didToKey s ≠ none := by
      rw [houtcome]
      exact Option.some_ne_none outcome
    have hcut : ∃ c tail, rest = c :: tail ∧ c.utf8Size = 1 := by
      by_contra hcut
      refine hrun (didToKey_eq_none_iff.mpr ⟨rest, hrest, fun c tail htail hc => ?_⟩)
      exact hcut ⟨c, tail, htail, hc⟩
    obtain ⟨c, tail, rfl, hc⟩ := hcut
    refine ⟨c, tail, rfl, hc, ?_⟩
    rintro k hk rfl
    have hok := didToKey_eq_ok_iff.mpr ⟨hk, c, hc, hrest⟩
    obtain rfl := hsound k hok
    exact didToKey_keyToDid_ne_ok k k hok
  · intro hcond
    constructor
    · refine Option.ne_none_iff_exists'.mp fun hnone => ?_
      obtain ⟨rest, hrest, hcut⟩ := didToKey_eq_none_iff.mp hnone
      obtain ⟨c, tail, rfl, hc, -⟩ := hcond rest hrest
      exact hcut c tail rfl hc
    · intro k hok
      obtain ⟨hk, c, hc, hrest⟩ := didToKey_eq_ok_iff.mp hok
      obtain ⟨c', tail, htail, -, hno⟩ := hcond _ hrest
      simp only [List.cons.injEq] at htail
      exact absurd htail.2.symm (hno k hk)

/-- The key of one byte comes back as an error, and the bare prefix stops the program. -/
theorem didToKey_off_by_one :
    didToKey (keyToDid [0x2a]) = some (.error .keyFormatBase64) ∧ didToKey "did:key:z" = none := by
  constructor
  · decide
  · decide

end Types

end Icn
