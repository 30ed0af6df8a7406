import Icn.Foundation.Codec.PrefixFree
import Mathlib.Data.UInt
import Mathlib.Tactic.Ring

/-!
# Byte strings

Numbers of a fixed width as little-endian bytes, texts as their UTF-8 bytes, and
bytes as texts of hexadecimal digits. All of them can be read back.
-/

namespace Foundation

namespace Codec

/-- The lowest `width` bytes of a number, lowest first. -/
def littleEndian : ℕ → ℕ → List UInt8
  | 0, _ => []
  | width + 1, n => UInt8.ofNat (n % 256) :: littleEndian width (n / 256)

/-- The number written by some bytes, lowest first. -/
def ofLittleEndian : List UInt8 → ℕ
  | [] => 0
  | byte :: bytes => byte.toNat + 256 * ofLittleEndian bytes

@[simp] theorem length_littleEndian (width n : ℕ) : (littleEndian width n).length = width := by
  induction width generalizing n with
  | zero => rfl
  | succ width ih => rw [littleEndian, List.length_cons, ih]

theorem ofLittleEndian_littleEndian {width n : ℕ} (h : n < 256 ^ width) :
    ofLittleEndian (littleEndian width n) = n := by
  induction width generalizing n with
  | zero =>
      rw [pow_zero, Nat.lt_one_iff] at h
      rw [h]
      rfl
  | succ width ih =>
      have hrest : n / 256 < 256 ^ width := by
        apply Nat.div_lt_of_lt_mul
        rwa [pow_succ'] at h
      have hlow : n % 256 < 2 ^ 8 := Nat.mod_lt n (by decide)
      rw [littleEndian, ofLittleEndian, ih hrest, UInt8.toNat_ofNat_of_lt' hlow]
      exact Nat.mod_add_div n 256

/-- The lowest `width` bytes of a number, highest first. -/
def bigEndian (width n : ℕ) : List UInt8 := (littleEndian width n).reverse

def ofBigEndian (bytes : List UInt8) : ℕ := ofLittleEndian bytes.reverse

@[simp] theorem length_bigEndian (width n : ℕ) : (bigEndian width n).length = width := by
  rw [bigEndian, List.length_reverse, length_littleEndian]

theorem ofBigEndian_bigEndian {width n : ℕ} (h : n < 256 ^ width) :
    ofBigEndian (bigEndian width n) = n := by
  rw [ofBigEndian, bigEndian, List.reverse_reverse, ofLittleEndian_littleEndian h]

def utf8 (s : String) : List UInt8 := s.toByteArray.data.toList

def ofUtf8 (bytes : List UInt8) : Option String := String.fromUTF8? ⟨bytes.toArray⟩

@[simp] theorem ofUtf8_utf8 (s : String) : ofUtf8 (utf8 s) = some s := by
  unfold ofUtf8 utf8 String.fromUTF8?
  rw [Array.toArray_toList]
  exact dif_pos s.isValidUTF8

theorem ofUtf8_eq_some_iff {bytes : List UInt8} {s : String} :
    ofUtf8 bytes = some s ↔ utf8 s = bytes := by
  constructor
  · intro h
    unfold ofUtf8 String.fromUTF8? at h
    split at h
    · rw [← Option.some.inj h, utf8]
      exact bytes.toList_toArray
    · cases h
  · rintro rfl
    exact ofUtf8_utf8 s

theorem utf8_injective : Function.Injective utf8 := by
  intro s s' h
  have hread : some s = some s' := by
    rw [← ofUtf8_utf8 s, ← ofUtf8_utf8 s', h]
  exact Option.some.inj hread

theorem utf8_ofList (l : List Char) :
    utf8 (String.ofList l) = l.flatMap String.utf8EncodeChar := by
  rw [utf8, String.toByteArray_ofList, List.utf8Encode, List.toList_data_toByteArray]

def hexDigitByte (n : ℕ) : UInt8 := UInt8.ofNat (if n < 10 then 0x30 + n else 0x57 + n)

def hexValue (byte : UInt8) : Option ℕ :=
  if 0x30 ≤ byte ∧ byte ≤ 0x39 then some (byte.toNat - 0x30)
  else if 0x61 ≤ byte ∧ byte ≤ 0x66 then some (byte.toNat - 0x57)
  else if 0x41 ≤ byte ∧ byte ≤ 0x46 then some (byte.toNat - 0x37)
  else none

theorem hexValue_hexDigitByte {n : ℕ} (h : n < 16) : hexValue (hexDigitByte n) = some n := by
  have hall : ∀ i : Fin 16, hexValue (hexDigitByte i) = some i.val := by decide
  exact hall ⟨n, h⟩

theorem ofNat_digits (byte : UInt8) :
    UInt8.ofNat (16 * (byte.toNat / 16) + byte.toNat % 16) = byte := by
  rw [Nat.div_add_mod, UInt8.ofNat_toNat]

theorem toNat_div_lt (byte : UInt8) : byte.toNat / 16 < 16 := by
  have hlt := byte.toNat_lt
  omega

theorem toNat_mod_lt (byte : UInt8) : byte.toNat % 16 < 16 := Nat.mod_lt _ (by decide)

def hexEncode (bytes : List UInt8) : String :=
  String.ofList (bytes.flatMap fun byte =>
    [Nat.digitChar (byte.toNat / 16), Nat.digitChar (byte.toNat % 16)])

theorem utf8EncodeChar_digitChar {n : ℕ} (h : n < 16) :
    String.utf8EncodeChar (Nat.digitChar n) = [hexDigitByte n] := by
  have hall : ∀ i : Fin 16, String.utf8EncodeChar (Nat.digitChar i) = [hexDigitByte i] := by
    decide
  exact hall ⟨n, h⟩

theorem utf8_hexEncode (bytes : List UInt8) :
    utf8 (hexEncode bytes) = bytes.flatMap fun byte =>
      [hexDigitByte (byte.toNat / 16), hexDigitByte (byte.toNat % 16)] := by
  rw [hexEncode, utf8_ofList, List.flatMap_assoc]
  apply List.flatMap_congr
  intro byte _
  rw [List.flatMap_cons, List.flatMap_cons, List.flatMap_nil, List.append_nil,
    utf8EncodeChar_digitChar (toNat_div_lt byte), utf8EncodeChar_digitChar (toNat_mod_lt byte)]
  rfl

inductive HexError where
  | oddLength
  | invalidHexCharacter (c : Char) (index : ℕ)
deriving DecidableEq, Repr

def hexDigitAt (index : ℕ) (byte : UInt8) : Except HexError ℕ :=
  match hexValue byte with
  | some n => .ok n
  | none => .error (.invalidHexCharacter (Char.ofNat byte.toNat) index)

def hexPairs (index : ℕ) : List UInt8 → Except HexError (List UInt8)
  | high :: low :: rest => do
      let high ← hexDigitAt index high
      let low ← hexDigitAt (index + 1) low
      let bytes ← hexPairs (index + 2) rest
      return UInt8.ofNat (16 * high + low) :: bytes
  | _ => .ok []

def hexDecode (s : String) : Except HexError (List UInt8) :=
  if (utf8 s).length % 2 ≠ 0 then .error .oddLength else hexPairs 0 (utf8 s)

theorem hexPairs_digits (index : ℕ) (bytes : List UInt8) :
    hexPairs index (bytes.flatMap fun byte =>
      [hexDigitByte (byte.toNat / 16), hexDigitByte (byte.toNat % 16)]) = .ok bytes := by
  induction bytes generalizing index with
  | nil => rfl
  | cons byte bytes ih =>
      have hhigh := hexValue_hexDigitByte (toNat_div_lt byte)
      have hlow := hexValue_hexDigitByte (toNat_mod_lt byte)
      simp only [List.flatMap_cons, List.cons_append, List.nil_append, hexPairs, hexDigitAt,
        hhigh, hlow, ih]
      exact congrArg Except.ok (congrArg (· :: bytes) (ofNat_digits byte))

@[simp] theorem hexDecode_hexEncode (bytes : List UInt8) :
    hexDecode (hexEncode bytes) = .ok bytes := by
  have hlength : (utf8 (hexEncode bytes)).length = 2 * bytes.length := by
    rw [utf8_hexEncode]
    induction bytes with
    | nil => rfl
    | cons byte bytes ih =>
        rw [List.flatMap_cons, List.length_append, ih, List.length_cons]
        simp
        omega
  rw [hexDecode, if_neg (by omega), utf8_hexEncode, hexPairs_digits]

end Codec

end Foundation
