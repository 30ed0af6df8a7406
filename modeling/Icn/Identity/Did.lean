import Mathlib.Data.Nat.Notation

/-!
# Identifiers

A `Did` is its text and nothing else: two identifiers are equal exactly when
they print the same, which is what lets the stores key their entries by the
printed form. `ScopeKey` names the organisational scope a mana pool belongs to.

Parsing takes a text apart at its colons and looks for an Ed25519 key behind
`did:key:`. The base encoding and the curve are libraries of their own, so
`DidLibrary` holds what parsing asks of them.
-/

namespace Icn

namespace Identity

structure Did where
  value : String
deriving DecidableEq, Repr

/-- The text of a `Did`, as `Display` and `as_str` give it. -/
def Did.asStr (did : Did) : String := did.value

theorem Did.asStr_injective {did did' : Did} (h : did.asStr = did'.asStr) : did = did' := by
  cases did
  cases did'
  exact congrArg Did.mk h

/-- The decoder of the base encoding and the check of a public key. Their refusals
are texts. -/
structure DidLibrary where
  decode : String → Except String (List UInt8)
  verifyingKey : List UInt8 → Except String Unit

/-- Why a text is no identifier. -/
inductive DidError where
  | emptyInput
  | invalidPrefix (found : String)
  | unsupportedMethod (found : String)
  | missingMethodSpecificId
  | invalidMethodSpecificIdEncoding (identifierPart source : String)
  | emptyDecodedMethodSpecificId
  | unsupportedKeyMulticodec (expectedCodec foundCodec : ℕ)
  | invalidKeyLength (expectedLen foundLen : ℕ)
  | invalidKeyBytes (source : String)
deriving DecidableEq, Repr

def hexText (n : ℕ) : String := String.ofList (Nat.toDigits 16 n)

def DidError.toString : DidError → String
  | emptyInput => "DID string is empty"
  | invalidPrefix found => s!"DID string must start with 'did:' prefix, found '{found}'"
  | unsupportedMethod found => s!"Unsupported DID method: expected 'key', found '{found}'"
  | missingMethodSpecificId =>
      "DID string is missing the method-specific identifier (e.g., 'did:key:<identifier>')"
  | invalidMethodSpecificIdEncoding identifierPart source =>
      s!"Method-specific identifier '{identifierPart}' is not valid multibase: {source}"
  | emptyDecodedMethodSpecificId =>
      "Decoded method-specific identifier is empty (no multicodec prefix)"
  | unsupportedKeyMulticodec expectedCodec foundCodec =>
      "Unsupported multicodec for 'did:key': expected 0x" ++ hexText expectedCodec ++
        " (Ed25519), found 0x" ++ hexText foundCodec
  | invalidKeyLength expectedLen foundLen =>
      s!"Invalid Ed25519 key length in 'did:key': expected {expectedLen} bytes, found {foundLen}"
  | invalidKeyBytes source => s!"Invalid Ed25519 key bytes: {source}"

def ed25519MulticodecPrefix : UInt8 := 0xed

def ed25519KeyLength : ℕ := 32

def ed25519Key (lib : DidLibrary) : List UInt8 → Except DidError (List UInt8)
  | [] => .error .emptyDecodedMethodSpecificId
  | codec :: keyBytes =>
      if codec = ed25519MulticodecPrefix then
        if keyBytes.length ≠ ed25519KeyLength then
          .error (.invalidKeyLength ed25519KeyLength keyBytes.length)
        else
          match lib.verifyingKey keyBytes with
          | .ok _ => .ok keyBytes
          | .error source => .error (.invalidKeyBytes source)
      else
        .error (.unsupportedKeyMulticodec ed25519MulticodecPrefix.toNat codec.toNat)

/-- The public key embedded in an identifier. Parts after the third are not
looked at. -/
def Did.toEd25519 (lib : DidLibrary) (did : Did) : Except DidError (List UInt8) :=
  if did.value = "" then
    .error .emptyInput
  else
    match (did.value.toList.splitOn ':').map String.ofList with
    | [] => .error (.invalidPrefix did.value)
    | scheme :: parts =>
        if scheme ≠ "did" then
          .error (.invalidPrefix scheme)
        else
          match parts with
          | [] => .error (.unsupportedMethod "")
          | method :: parts =>
              if method ≠ "key" then
                .error (.unsupportedMethod method)
              else
                match parts with
                | [] => .error .missingMethodSpecificId
                | identifierPart :: _ =>
                    if identifierPart = "" then
                      .error .missingMethodSpecificId
                    else
                      match lib.decode identifierPart with
                      | .ok data => ed25519Key lib data
                      | .error source =>
                          .error (.invalidMethodSpecificIdEncoding identifierPart source)

def Did.fromStr (lib : DidLibrary) (s : String) : Except DidError Did :=
  if s = "" then
    .error .emptyInput
  else
    match Did.toEd25519 lib ⟨s⟩ with
    | .ok _ => .ok ⟨s⟩
    | .error err => .error err

theorem Did.value_of_fromStr {lib : DidLibrary} {s : String} {did : Did}
    (h : Did.fromStr lib s = .ok did) : did.value = s := by
  unfold Did.fromStr at h
  split at h
  · cases h
  · split at h
    · rw [← Except.ok.inj h]
    · cases h

def hexDigit (c : Char) : Option ℕ :=
  if '0' ≤ c ∧ c ≤ '9' then some (c.toNat - '0'.toNat)
  else if 'a' ≤ c ∧ c ≤ 'f' then some (c.toNat - 'a'.toNat + 10)
  else none

def hexBytes : List Char → Option (List UInt8)
  | [] => some []
  | [_] => none
  | high :: low :: rest => do
      let high ← hexDigit high
      let low ← hexDigit low
      let bytes ← hexBytes rest
      return UInt8.ofNat (16 * high + low) :: bytes

/-- The base-16 alphabet of the encoding, with two points of the curve as keys:
the base point and the neutral element. -/
def base16Library : DidLibrary where
  decode s :=
    match s.toList with
    | 'f' :: digits =>
        match hexBytes digits with
        | some bytes => .ok bytes
        | none => .error "Invalid base string"
    | _ => .error "Unknown base code"
  verifyingKey bytes :=
    if bytes = 0x58 :: List.replicate 31 0x66 ∨ bytes = 0x01 :: List.replicate 31 0x00 then
      .ok ()
    else .error "signature error"

def basePointDid : String :=
  "did:key:fed5866666666666666666666666666666666666666666666666666666666666666"

def neutralDid : String :=
  "did:key:fed0100000000000000000000000000000000000000000000000000000000000000"

theorem fromStr_basePointDid :
    Did.fromStr base16Library basePointDid = .ok ⟨basePointDid⟩ := rfl

inductive ScopeKey where
  | federation (id : String)
  | cooperative (id : String)
  | community (id : String)
  | individual (id : String)
deriving DecidableEq, Repr

end Identity

end Icn
