import Icn.Foundation.Codec.Json

/-!
# Reading JSON values

Readers take a value from a JSON value or say why they cannot. They follow
derived deserialisers: a field of a record may be given once, an absent field is
an error unless the record says otherwise, and `null` reads as an absent option.
What a hand-written reader refuses on top of that is an error of its own type.
-/

namespace Foundation

namespace Codec

namespace Json

/-- Why a value could not be read. -/
inductive ReadError (ε : Type) where
  | malformed (message : String)
  | invalidType (expected : String)
  | invalidLength (length : ℕ) (expected : String)
  | invalidValue (value : ℕ) (expected : String)
  | duplicateField (field : String)
  | missingField (field : String)
  | unknownField (field : String)
  | unknownVariant (variant : String)
  | custom (error : ε)
deriving DecidableEq, Repr

abbrev Read (ε α : Type) := Except (ReadError ε) α

variable {ε α β : Type}

def readString : Json → Read ε String
  | .string value => .ok value
  | _ => .error (.invalidType "a string")

def readOption (read : Json → Read ε α) : Json → Read ε (Option α)
  | .null => .ok none
  | json => (read json).map some

def readUnsigned (bound : ℕ) (expected : String) : Json → Read ε ℕ
  | .number value =>
      match value.toNat with
      | some n => if n < bound then .ok n else .error (.invalidValue n expected)
      | none => .error (.invalidType expected)
  | _ => .error (.invalidType expected)

def readU8 (json : Json) : Read ε UInt8 := (readUnsigned (2 ^ 8) "u8" json).map UInt8.ofNat

def readU16 (json : Json) : Read ε UInt16 := (readUnsigned (2 ^ 16) "u16" json).map UInt16.ofNat

def readU32 (json : Json) : Read ε UInt32 := (readUnsigned (2 ^ 32) "u32" json).map UInt32.ofNat

def readList (read : Json → Read ε α) : Json → Read ε (List α)
  | .array items => items.mapM read
  | _ => .error (.invalidType "a sequence")

def readPair (readFst : Json → Read ε α) (readSnd : Json → Read ε β) : Json → Read ε (α × β)
  | .array [first, second] => do
      let fst ← readFst first
      let snd ← readSnd second
      return (fst, snd)
  | .array items => .error (.invalidLength items.length "a tuple of size 2")
  | _ => .error (.invalidType "a tuple of size 2")

def readField (field : String) (slot : Option α) (read : Json → Read ε α) (json : Json) :
    Read ε (Option α) :=
  match slot with
  | some _ => .error (.duplicateField field)
  | none => (read json).map some

def required (field : String) : Option α → Read ε α
  | some value => .ok value
  | none => .error (.missingField field)

@[simp] theorem readU8_number (n : UInt8) :
    readU8 (ε := ε) (.number (Number.ofNat n.toNat)) = .ok n := by
  rw [readU8, readUnsigned, Number.toNat_ofNat]
  simp only [if_pos n.toNat_lt, Except.map, UInt8.ofNat_toNat]

@[simp] theorem readU16_number (n : UInt16) :
    readU16 (ε := ε) (.number (Number.ofNat n.toNat)) = .ok n := by
  rw [readU16, readUnsigned, Number.toNat_ofNat]
  simp only [if_pos n.toNat_lt, Except.map, UInt16.ofNat_toNat]

@[simp] theorem readU32_number (n : UInt32) :
    readU32 (ε := ε) (.number (Number.ofNat n.toNat)) = .ok n := by
  rw [readU32, readUnsigned, Number.toNat_ofNat]
  simp only [if_pos n.toNat_lt, Except.map, UInt32.ofNat_toNat]

end Json

end Codec

end Foundation
