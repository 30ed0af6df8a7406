import Icn.Foundation.Codec.Json

/-!
# The text of a JSON value

What is written for a JSON value are the bytes of a text. Numbers and punctuation are
ASCII, and the escapes of a quoted text replace ASCII characters by ASCII characters: the
bytes of other characters all have their highest bit set and stay as they are.

So every value has a text (`Json.toText`), and the text determines the value.
-/

namespace Foundation

namespace Codec

/-- The bytes are those of a text. -/
def IsUtf8 (bytes : List UInt8) : Prop := ∃ s, utf8 s = bytes

namespace IsUtf8

theorem nil : IsUtf8 [] := ⟨"", rfl⟩

theorem append {bytes bytes' : List UInt8} (h : IsUtf8 bytes) (h' : IsUtf8 bytes') :
    IsUtf8 (bytes ++ bytes') := by
  obtain ⟨s, rfl⟩ := h
  obtain ⟨s', rfl⟩ := h'
  refine ⟨s ++ s', ?_⟩
  rw [← String.ofList_toList (s := s), ← String.ofList_toList (s := s'), ← String.ofList_append]
  simp only [utf8_ofList, List.flatMap_append]

theorem flatMap {α : Type*} {f : α → List UInt8} {l : List α} (h : ∀ a ∈ l, IsUtf8 (f a)) :
    IsUtf8 (l.flatMap f) := by
  induction l with
  | nil => exact nil
  | cons a l ih =>
      rw [List.flatMap_cons]
      exact (h a List.mem_cons_self).append (ih fun b hb => h b (List.mem_cons_of_mem a hb))

theorem encodeChar (c : Char) : IsUtf8 (String.utf8EncodeChar c) :=
  ⟨String.ofList [c], by rw [utf8_ofList, List.flatMap_singleton]⟩

theorem ascii {byte : UInt8} (h : byte < 0x80) : IsUtf8 [byte] := by
  have hall : ∀ i : Fin 128, String.utf8EncodeChar (Char.ofNat i) = [UInt8.ofNat i] := by decide
  have hchar := hall ⟨byte.toNat, h⟩
  rw [UInt8.ofNat_toNat] at hchar
  rw [← hchar]
  exact encodeChar _

theorem of_all_ascii {bytes : List UInt8} (h : bytes.all fun byte => byte < 0x80) :
    IsUtf8 bytes := by
  have hbytes : IsUtf8 (bytes.flatMap fun byte => [byte]) := flatMap fun byte hbyte =>
    ascii (of_decide_eq_true (List.all_eq_true.mp h byte hbyte))
  rwa [List.flatMap_singleton'] at hbytes

theorem cons {byte : UInt8} {bytes : List UInt8} (hbyte : byte < 0x80) (h : IsUtf8 bytes) :
    IsUtf8 (byte :: bytes) :=
  (ascii hbyte).append h

end IsUtf8

theorem le_lor {x y : UInt8} (h : 0x80 ≤ y) : 0x80 ≤ x ||| y := by
  rw [UInt8.le_iff_toNat_le] at h ⊢
  rw [UInt8.toNat_or]
  exact h.trans Nat.right_le_or

theorem utf8EncodeChar_cases (c : Char) :
    (∃ byte, byte < 0x80 ∧ String.utf8EncodeChar c = [byte]) ∨
      ∀ byte ∈ String.utf8EncodeChar c, 0x80 ≤ byte := by
  rcases c.utf8Size_eq with hsize | hsize | hsize | hsize
  · left
    refine ⟨c.val.toUInt8, ?_, String.utf8EncodeChar_eq_singleton hsize⟩
    have hval := Char.utf8Size_eq_one_iff.mp hsize
    rw [UInt32.le_iff_toNat_le] at hval
    rw [UInt8.lt_iff_toNat_lt, UInt32.toNat_toUInt8]
    exact lt_of_le_of_lt (Nat.mod_le _ _) (Nat.lt_succ_of_le hval)
  · right
    rw [String.utf8EncodeChar_eq_cons_cons hsize]
    simp only [List.forall_mem_cons]
    exact ⟨le_lor (by decide), le_lor (by decide), fun byte hbyte => by cases hbyte⟩
  · right
    rw [String.utf8EncodeChar_eq_cons_cons_cons hsize]
    simp only [List.forall_mem_cons]
    exact ⟨le_lor (by decide), le_lor (by decide), le_lor (by decide),
      fun byte hbyte => by cases hbyte⟩
  · right
    rw [String.utf8EncodeChar_eq_cons_cons_cons_cons hsize]
    simp only [List.forall_mem_cons]
    exact ⟨le_lor (by decide), le_lor (by decide), le_lor (by decide), le_lor (by decide),
      fun byte hbyte => by cases hbyte⟩

namespace Json

theorem escapeByte_of_le {byte : UInt8} (h : 0x80 ≤ byte) : escapeByte byte = [byte] := by
  have hne : ∀ other : UInt8, other < 0x80 → byte ≠ other := by
    rintro other hother rfl
    exact UInt8.not_le.mpr hother h
  have hcontrol : ¬ byte < 0x20 := UInt8.not_lt.mpr (UInt8.le_trans (by decide) h)
  rw [escapeByte, if_neg (hne _ (by decide)), if_neg (hne _ (by decide)),
    if_neg (hne _ (by decide)), if_neg (hne _ (by decide)), if_neg (hne _ (by decide)),
    if_neg (hne _ (by decide)), if_neg (hne _ (by decide)), if_neg hcontrol]

theorem escapeByte_ascii {byte : UInt8} (h : byte < 0x80) :
    (escapeByte byte).all fun escaped => escaped < 0x80 := by
  have hall : ∀ i : Fin 128, (escapeByte (UInt8.ofNat i)).all fun escaped => escaped < 0x80 := by
    decide
  have hbyte := hall ⟨byte.toNat, h⟩
  rwa [UInt8.ofNat_toNat] at hbyte

theorem numeralBytes_ascii {bytes : List UInt8} (h : ∀ byte ∈ bytes, byte ∈ numeralBytes) :
    bytes.all fun byte => byte < 0x80 := by
  have hall : numeralBytes.all fun byte => byte < 0x80 := by decide
  exact List.all_eq_true.mpr fun byte hbyte => List.all_eq_true.mp hall byte (h byte hbyte)

theorem isUtf8_quote (s : String) : IsUtf8 (quote s) := by
  have hchar : ∀ c : Char, IsUtf8 ((String.utf8EncodeChar c).flatMap escapeByte) := by
    intro c
    rcases utf8EncodeChar_cases c with ⟨byte, hbyte, hc⟩ | hc
    · rw [hc, List.flatMap_singleton]
      exact .of_all_ascii (escapeByte_ascii hbyte)
    · have hkeep : (String.utf8EncodeChar c).flatMap escapeByte = String.utf8EncodeChar c :=
        (List.flatMap_congr fun byte hbyte => escapeByte_of_le (hc byte hbyte)).trans
          (List.flatMap_singleton' _)
      rw [hkeep]
      exact .encodeChar c
  rw [quote]
  refine .cons (by decide) (.append ?_ (.ascii (by decide)))
  rw [← String.ofList_toList (s := s), utf8_ofList, List.flatMap_assoc]
  exact .flatMap fun c _ => hchar c

mutual

theorem isUtf8_render : ∀ json : Json, IsUtf8 json.render
  | .null => .of_all_ascii rfl
  | .bool true => .of_all_ascii rfl
  | .bool false => .of_all_ascii rfl
  | .number value => .of_all_ascii (numeralBytes_ascii value.mem_numeralBytes)
  | .string value => isUtf8_quote value
  | .array [] => .of_all_ascii rfl
  | .array (item :: items) =>
      .cons (by decide) (.append (isUtf8_render item) (isUtf8_renderItems items))
  | .object [] => .of_all_ascii rfl
  | .object (entry :: entries) =>
      .cons (by decide) (.append (isUtf8_renderEntry entry) (isUtf8_renderEntries entries))

theorem isUtf8_renderItems : ∀ items : List Json, IsUtf8 (renderItems items)
  | [] => .of_all_ascii rfl
  | item :: items =>
      .cons (by decide) (.append (isUtf8_render item) (isUtf8_renderItems items))

theorem isUtf8_renderEntry : ∀ entry : String × Json, IsUtf8 (renderEntry entry)
  | (key, value) => .append (isUtf8_quote key) (.cons (by decide) (isUtf8_render value))

theorem isUtf8_renderEntries : ∀ entries : List (String × Json), IsUtf8 (renderEntries entries)
  | [] => .of_all_ascii rfl
  | entry :: entries =>
      .cons (by decide) (.append (isUtf8_renderEntry entry) (isUtf8_renderEntries entries))

end

def toText (json : Json) : String := (ofUtf8 json.render).getD ""

theorem ofUtf8_render (json : Json) : ofUtf8 json.render = some json.toText := by
  obtain ⟨s, hs⟩ := isUtf8_render json
  rw [toText, ← hs, ofUtf8_utf8]
  rfl

theorem toText_injective : Function.Injective toText := by
  intro json json' h
  obtain ⟨s, hs⟩ := isUtf8_render json
  obtain ⟨s', hs'⟩ := isUtf8_render json'
  have htext : s = s' := by
    rw [toText, toText, ← hs, ← hs', ofUtf8_utf8, ofUtf8_utf8] at h
    exact h
  apply render_injective
  rw [← hs, ← hs', htext]

end Json

end Codec

end Foundation
