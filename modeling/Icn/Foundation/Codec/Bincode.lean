import Icn.Foundation.Codec.Bytes

/-!
# The bincode encoding

Words are eight little-endian bytes, a text is its length as a word followed by
its bytes, an option is a tag byte with the value behind it, and a record is
its fields in order.
-/

namespace Foundation

namespace Codec

namespace Bincode

def u64 (x : UInt64) : List UInt8 := littleEndian 8 x.toNat

@[simp] theorem length_u64 (x : UInt64) : (u64 x).length = 8 := length_littleEndian 8 x.toNat

def readU64 (bytes : List UInt8) : Option (UInt64 × List UInt8) :=
  if bytes.length < 8 then none
  else some (UInt64.ofNat (ofLittleEndian (bytes.take 8)), bytes.drop 8)

@[simp] theorem readU64_u64 (x : UInt64) (rest : List UInt8) :
    readU64 (u64 x ++ rest) = some (x, rest) := by
  have hlength : ¬ (u64 x ++ rest).length < 8 := by
    rw [List.length_append, length_u64]
    omega
  rw [readU64, if_neg hlength, List.take_left' (length_u64 x), List.drop_left' (length_u64 x),
    u64, ofLittleEndian_littleEndian x.toNat_lt, UInt64.ofNat_toNat]

theorem prefixFree_u64 : PrefixFree u64 := by
  apply prefixFree_of_read fun bytes => (readU64 bytes).map Prod.fst
  intro x rest
  rw [readU64_u64]
  rfl

def text (s : String) : List UInt8 := u64 (UInt64.ofNat (utf8 s).length) ++ utf8 s

theorem length_text (s : String) : (text s).length = 8 + (utf8 s).length := by
  rw [text, List.length_append, length_u64]

/-- Texts whose length fits a word can be told apart, whatever follows them. -/
theorem text_append_inj {s s' : String} {rest rest' : List UInt8}
    (hs : (utf8 s).length < 2 ^ 64) (hs' : (utf8 s').length < 2 ^ 64) :
    text s ++ rest = text s' ++ rest' ↔ s = s' ∧ rest = rest' := by
  constructor
  · intro h
    rw [text, text, List.append_assoc, List.append_assoc, prefixFree_u64.append_inj] at h
    have hlength : (utf8 s).length = (utf8 s').length := by
      rw [← UInt64.toNat_ofNat_of_lt' hs, ← UInt64.toNat_ofNat_of_lt' hs', h.1]
    obtain ⟨htext, hrest⟩ := List.append_inj h.2 hlength
    exact ⟨utf8_injective htext, hrest⟩
  · rintro ⟨rfl, rfl⟩
    rfl

def option {α : Type*} (code : α → List UInt8) : Option α → List UInt8
  | none => [0]
  | some a => 1 :: code a

end Bincode

end Codec

end Foundation
