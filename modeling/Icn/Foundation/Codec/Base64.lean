import Icn.Foundation.Codec.Alphabet
import Mathlib.Data.Nat.Notation
import Mathlib.Data.UInt

/-!
# Texts to the base 64

Three bytes are four digits to the base 64. One or two bytes at the end are two or
three digits, the bits left over being zero, and no padding follows. A text that
leaves other bits over is not read, so that every text that is read is the text of
its bytes. The alphabet is the one for URLs.
-/

namespace Foundation

namespace Codec

/-- Numbers of eight bits in groups of six, the last group filled with zeros. -/
def sextets : List ℕ → List ℕ
  | a :: b :: c :: rest =>
      a / 4 :: (a % 4 * 16 + b / 16) :: (b % 16 * 4 + c / 64) :: c % 64 :: sextets rest
  | [a, b] => [a / 4, a % 4 * 16 + b / 16, b % 16 * 4]
  | [a] => [a / 4, a % 4 * 16]
  | [] => []

def octets : List ℕ → Option (List ℕ)
  | a :: b :: c :: d :: rest =>
      (octets rest).map fun bytes =>
        (a * 4 + b / 16) :: (b % 16 * 16 + c / 4) :: (c % 4 * 64 + d) :: bytes
  | [a, b, c] => if c % 4 = 0 then some [a * 4 + b / 16, b % 16 * 16 + c / 4] else none
  | [a, b] => if b % 16 = 0 then some [a * 4 + b / 16] else none
  | [_] => none
  | [] => some []

theorem lt_of_mem_sextets : ∀ {bytes : List ℕ}, (∀ b ∈ bytes, b < 256) →
    ∀ d ∈ sextets bytes, d < 64
  | a :: b :: c :: rest, h, d, hd => by
      simp only [List.forall_mem_cons] at h
      obtain ⟨ha, hb, hc, hrest⟩ := h
      simp only [sextets, List.mem_cons] at hd
      rcases hd with rfl | rfl | rfl | rfl | hd
      · omega
      · omega
      · omega
      · omega
      · exact lt_of_mem_sextets hrest d hd
  | [a, b], h, d, hd => by
      simp only [List.forall_mem_cons] at h
      simp only [sextets, List.mem_cons, List.not_mem_nil, or_false] at hd
      omega
  | [a], h, d, hd => by
      simp only [List.forall_mem_cons] at h
      simp only [sextets, List.mem_cons, List.not_mem_nil, or_false] at hd
      omega
  | [], _, d, hd => by simp [sextets] at hd

theorem octets_sextets : ∀ {bytes : List ℕ}, (∀ b ∈ bytes, b < 256) →
    octets (sextets bytes) = some bytes
  | a :: b :: c :: rest, h => by
      simp only [List.forall_mem_cons] at h
      obtain ⟨ha, hb, hc, hrest⟩ := h
      rw [sextets, octets, octets_sextets hrest, Option.map_some]
      congr 2
      · omega
      · congr 1
        · omega
        · congr 1
          omega
  | [a, b], h => by
      simp only [List.forall_mem_cons] at h
      rw [sextets, octets, if_pos (by omega)]
      congr 2
      · omega
      · congr 1
        omega
  | [a], h => by
      simp only [List.forall_mem_cons] at h
      rw [sextets, octets, if_pos (by omega)]
      congr 2
      omega
  | [], _ => rfl

theorem lt_of_octets_eq_some : ∀ {digits : List ℕ}, (∀ d ∈ digits, d < 64) →
    ∀ {bytes : List ℕ}, octets digits = some bytes → ∀ b ∈ bytes, b < 256
  | a :: b :: c :: d :: rest, h, bytes, hbytes => by
      simp only [List.forall_mem_cons] at h
      obtain ⟨ha, hb, hc, hd, hrest⟩ := h
      rw [octets, Option.map_eq_some_iff] at hbytes
      obtain ⟨tail, htail, rfl⟩ := hbytes
      simp only [List.forall_mem_cons]
      exact ⟨by omega, by omega, by omega, lt_of_octets_eq_some hrest htail⟩
  | [a, b, c], h, bytes, hbytes => by
      simp only [List.forall_mem_cons] at h
      rw [octets, Option.ite_none_right_eq_some, Option.some.injEq] at hbytes
      obtain ⟨-, rfl⟩ := hbytes
      simp only [List.forall_mem_cons, List.not_mem_nil, false_implies, implies_true, and_true]
      omega
  | [a, b], h, bytes, hbytes => by
      simp only [List.forall_mem_cons] at h
      rw [octets, Option.ite_none_right_eq_some, Option.some.injEq] at hbytes
      obtain ⟨-, rfl⟩ := hbytes
      simp only [List.forall_mem_cons, List.not_mem_nil, false_implies, implies_true, and_true]
      omega
  | [_], _, _, hbytes => by cases hbytes
  | [], _, _, hbytes => by
      obtain rfl := Option.some.inj hbytes
      simp

theorem sextets_of_octets : ∀ {digits : List ℕ}, (∀ d ∈ digits, d < 64) →
    ∀ {bytes : List ℕ}, octets digits = some bytes → sextets bytes = digits
  | a :: b :: c :: d :: rest, h, bytes, hbytes => by
      simp only [List.forall_mem_cons] at h
      obtain ⟨ha, hb, hc, hd, hrest⟩ := h
      rw [octets, Option.map_eq_some_iff] at hbytes
      obtain ⟨tail, htail, rfl⟩ := hbytes
      rw [sextets, sextets_of_octets hrest htail]
      congr 1
      · omega
      · congr 1
        · omega
        · congr 1
          · omega
          · congr 1
            omega
  | [a, b, c], h, bytes, hbytes => by
      simp only [List.forall_mem_cons] at h
      rw [octets, Option.ite_none_right_eq_some, Option.some.injEq] at hbytes
      obtain ⟨hc, rfl⟩ := hbytes
      rw [sextets]
      congr 1
      · omega
      · congr 1
        · omega
        · congr 1
          omega
  | [a, b], h, bytes, hbytes => by
      simp only [List.forall_mem_cons] at h
      rw [octets, Option.ite_none_right_eq_some, Option.some.injEq] at hbytes
      obtain ⟨hb, rfl⟩ := hbytes
      rw [sextets]
      congr 1
      · omega
      · congr 1
        omega
  | [_], _, _, hbytes => by cases hbytes
  | [], _, _, hbytes => by
      obtain rfl := Option.some.inj hbytes
      rfl

def base64Alphabet : List Char :=
  "ABCDEFGHIJKLMNOPQRSTUVWXYZabcdefghijklmnopqrstuvwxyz0123456789-_".toList

def base64Encode (bytes : List UInt8) : List Char :=
  (sextets (bytes.map UInt8.toNat)).map fun d => base64Alphabet.getD d 'A'

def base64Decode (text : List Char) : Option (List UInt8) :=
  if text.all fun c => c ∈ base64Alphabet then
    (octets (text.map base64Alphabet.idxOf)).map fun bytes => bytes.map UInt8.ofNat
  else none

theorem length_base64Alphabet : base64Alphabet.length = 64 := by decide

theorem nodup_base64Alphabet : base64Alphabet.Nodup := by decide

theorem lt_of_mem_map_toNat {bytes : List UInt8} : ∀ b ∈ bytes.map UInt8.toNat, b < 256 := by
  intro b hb
  obtain ⟨byte, -, rfl⟩ := List.mem_map.mp hb
  exact byte.toNat_lt

theorem lt_of_mem_sextets_map_toNat (bytes : List UInt8) :
    ∀ d ∈ sextets (bytes.map UInt8.toNat), d < base64Alphabet.length := by
  rw [length_base64Alphabet]
  exact lt_of_mem_sextets lt_of_mem_map_toNat

theorem mem_base64Alphabet_of_mem {bytes : List UInt8} {c : Char} (h : c ∈ base64Encode bytes) :
    c ∈ base64Alphabet :=
  mem_of_mem_map_getD (lt_of_mem_sextets_map_toNat bytes) h

theorem base64Decode_base64Encode (bytes : List UInt8) :
    base64Decode (base64Encode bytes) = some bytes := by
  have hmem : (base64Encode bytes).all fun c => c ∈ base64Alphabet :=
    List.all_eq_true.mpr fun c hc => decide_eq_true (mem_base64Alphabet_of_mem hc)
  rw [base64Decode, if_pos hmem, base64Encode,
    map_idxOf_map_getD nodup_base64Alphabet _ (lt_of_mem_sextets_map_toNat bytes),
    octets_sextets lt_of_mem_map_toNat, Option.map_some, List.map_map]
  exact congrArg some ((List.map_congr_left fun byte _ => UInt8.ofNat_toNat).trans (List.map_id _))

theorem base64Encode_injective : Function.Injective base64Encode := by
  intro bytes bytes' h
  have hread : some bytes = some bytes' := by
    rw [← base64Decode_base64Encode bytes, ← base64Decode_base64Encode bytes', h]
  exact Option.some.inj hread

theorem base64Encode_of_base64Decode {text : List Char} {bytes : List UInt8}
    (h : base64Decode text = some bytes) : base64Encode bytes = text := by
  rw [base64Decode] at h
  split at h
  · next hall =>
    obtain ⟨numbers, hnumbers, rfl⟩ := Option.map_eq_some_iff.mp h
    have htext : ∀ c ∈ text, c ∈ base64Alphabet := fun c hc =>
      of_decide_eq_true (List.all_eq_true.mp hall c hc)
    have hdigits : ∀ d ∈ text.map base64Alphabet.idxOf, d < 64 := by
      intro d hd
      rw [← length_base64Alphabet]
      exact lt_length_of_mem_map_idxOf htext hd
    have hbytes : (numbers.map UInt8.ofNat).map UInt8.toNat = numbers := by
      rw [List.map_map]
      refine (List.map_congr_left fun b hb => ?_).trans (List.map_id _)
      exact UInt8.toNat_ofNat_of_lt' (lt_of_octets_eq_some hdigits hnumbers b hb)
    rw [base64Encode, hbytes, sextets_of_octets hdigits hnumbers, map_getD_map_idxOf _ htext]
  · cases h

theorem base64Decode_eq_some_iff {text : List Char} {bytes : List UInt8} :
    base64Decode text = some bytes ↔ text = base64Encode bytes := by
  constructor
  · intro h
    exact (base64Encode_of_base64Decode h).symm
  · rintro rfl
    exact base64Decode_base64Encode bytes

end Codec

end Foundation
