import Icn.Foundation.Codec.Bytes

/-!
# The CBOR encoding

Every item begins with a head: three bits for the kind of the item and its
argument in the fewest bytes that hold it. A text is its length and its bytes, an
array or a map its size and its items, and a record a map from the names of the
fields. A head can be read back, so items can be told apart whatever follows.
-/

namespace Foundation

namespace Codec

namespace Cbor

/-- The head of an item of the kind `major`. -/
def head (major n : ℕ) : List UInt8 :=
  if n < 24 then [UInt8.ofNat (32 * major + n)]
  else if n < 2 ^ 8 then UInt8.ofNat (32 * major + 24) :: bigEndian 1 n
  else if n < 2 ^ 16 then UInt8.ofNat (32 * major + 25) :: bigEndian 2 n
  else if n < 2 ^ 32 then UInt8.ofNat (32 * major + 26) :: bigEndian 4 n
  else UInt8.ofNat (32 * major + 27) :: bigEndian 8 n

def readHead : List UInt8 → Option ℕ
  | [] => none
  | byte :: rest =>
      let info := byte.toNat % 32
      if info < 24 then some info
      else if info < 28 then some (ofBigEndian (rest.take (2 ^ (info - 24))))
      else none

theorem toNat_mod_of_lt {major info : ℕ} (hmajor : major < 8) (hinfo : info < 32) :
    (UInt8.ofNat (32 * major + info)).toNat % 32 = info := by
  rw [UInt8.toNat_ofNat_of_lt' (show 32 * major + info < 2 ^ 8 by omega)]
  omega

/-- A long argument follows the first byte. -/
theorem readHead_long (width : ℕ) {major n : ℕ} (hmajor : major < 8) (hwidth : width < 4)
    (hn : n < 256 ^ 2 ^ width) (rest : List UInt8) :
    readHead (UInt8.ofNat (32 * major + (24 + width)) :: bigEndian (2 ^ width) n ++ rest) =
      some n := by
  have hinfo := toNat_mod_of_lt hmajor (show 24 + width < 32 by omega)
  rw [List.cons_append]
  simp only [readHead, hinfo]
  rw [if_neg (by omega), if_pos (by omega), Nat.add_sub_cancel_left,
    List.take_left' (length_bigEndian _ n), ofBigEndian_bigEndian hn]

theorem readHead_head {major n : ℕ} (hmajor : major < 8) (hn : n < 2 ^ 64)
    (rest : List UInt8) : readHead (head major n ++ rest) = some n := by
  unfold head
  split_ifs with h₁ h₂ h₃ h₄
  · have hinfo := toNat_mod_of_lt hmajor (show n < 32 by omega)
    simp only [List.singleton_append, readHead, hinfo, if_pos h₁]
  · exact readHead_long 0 hmajor (by decide) h₂ rest
  · exact readHead_long 1 hmajor (by decide) h₃ rest
  · exact readHead_long 2 hmajor (by decide) h₄ rest
  · exact readHead_long 3 hmajor (by decide) hn rest

def uint (x : UInt64) : List UInt8 := head 0 x.toNat

theorem prefixFree_uint : PrefixFree uint := by
  apply prefixFree_of_read fun bytes => (readHead bytes).map UInt64.ofNat
  intro x rest
  rw [uint, readHead_head (by decide) x.toNat_lt, Option.map_some, UInt64.ofNat_toNat]

def text (s : String) : List UInt8 := head 3 (utf8 s).length ++ utf8 s

/-- Texts whose length fits a word can be told apart, whatever follows them. -/
theorem text_append_inj {s s' : String} {rest rest' : List UInt8}
    (hs : (utf8 s).length < 2 ^ 64) (hs' : (utf8 s').length < 2 ^ 64) :
    text s ++ rest = text s' ++ rest' ↔ s = s' ∧ rest = rest' := by
  constructor
  · intro h
    rw [text, text, List.append_assoc, List.append_assoc] at h
    have hlength : (utf8 s).length = (utf8 s').length := by
      have hread := readHead_head (show 3 < 8 by decide) hs (utf8 s ++ rest)
      rw [h, readHead_head (by decide) hs'] at hread
      exact (Option.some.inj hread).symm
    rw [hlength] at h
    obtain ⟨htext, hrest⟩ := List.append_inj (List.append_cancel_left h) hlength
    exact ⟨utf8_injective htext, hrest⟩
  · rintro ⟨rfl, rfl⟩
    rfl

def array (items : List (List UInt8)) : List UInt8 := head 4 items.length ++ items.flatten

def map (entries : List (List UInt8 × List UInt8)) : List UInt8 :=
  head 5 entries.length ++ entries.flatMap fun entry => entry.1 ++ entry.2

def field (name : String) (value : List UInt8) : List UInt8 × List UInt8 := (text name, value)

def byteArray (bytes : List UInt8) : List UInt8 :=
  array (bytes.map fun byte => uint byte.toUInt64)

def option {α : Type*} (code : α → List UInt8) : Option α → List UInt8
  | none => [0xf6]
  | some a => code a

end Cbor

end Codec

end Foundation
