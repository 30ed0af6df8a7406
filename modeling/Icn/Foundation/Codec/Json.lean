import Icn.Foundation.Codec.Bytes
import Mathlib.Data.Nat.Digits.Lemmas

/-!
# Compact JSON

A JSON value is written without blanks: texts are quoted with their quotation
marks, backslashes and control bytes escaped, arrays and objects are written item
by item between brackets. An object is the list of its entries, so that the text
keeps their order and a repeated key.

The text determines the value: `render_injective`. Numbers are the only values
whose text does not show where it ends, so a value is read off its text up to a
byte that no number contains.
-/

namespace Foundation

namespace Codec

namespace Json

def escapeByte (byte : UInt8) : List UInt8 :=
  if byte = 0x22 then [0x5c, 0x22]
  else if byte = 0x5c then [0x5c, 0x5c]
  else if byte = 0x08 then [0x5c, 0x62]
  else if byte = 0x09 then [0x5c, 0x74]
  else if byte = 0x0a then [0x5c, 0x6e]
  else if byte = 0x0c then [0x5c, 0x66]
  else if byte = 0x0d then [0x5c, 0x72]
  else if byte < 0x20 then
    [0x5c, 0x75, 0x30, 0x30, hexDigitByte (byte.toNat / 16), hexDigitByte (byte.toNat % 16)]
  else [byte]

def readByte : List UInt8 → Option UInt8
  | 0x5c :: 0x62 :: _ => some 0x08
  | 0x5c :: 0x74 :: _ => some 0x09
  | 0x5c :: 0x6e :: _ => some 0x0a
  | 0x5c :: 0x66 :: _ => some 0x0c
  | 0x5c :: 0x72 :: _ => some 0x0d
  | 0x5c :: 0x75 :: _ :: _ :: high :: low :: _ => do
      let high ← hexValue high
      let low ← hexValue low
      return UInt8.ofNat (16 * high + low)
  | 0x5c :: byte :: _ => some byte
  | byte :: _ => some byte
  | [] => none

theorem readByte_escapeByte (byte : UInt8) (rest : List UInt8) :
    readByte (escapeByte byte ++ rest) = some byte := by
  unfold escapeByte
  split_ifs with hquote hbackslash hb ht hn hf hr hcontrol
  · rw [hquote]
    rfl
  · rw [hbackslash]
    rfl
  · rw [hb]
    rfl
  · rw [ht]
    rfl
  · rw [hn]
    rfl
  · rw [hf]
    rfl
  · rw [hr]
    rfl
  · simp only [List.cons_append, List.nil_append, readByte,
      hexValue_hexDigitByte (toNat_div_lt byte), hexValue_hexDigitByte (toNat_mod_lt byte)]
    exact congrArg some (ofNat_digits byte)
  · rw [List.singleton_append]
    unfold readByte
    split <;> simp_all

theorem prefixFree_escapeByte : PrefixFree escapeByte :=
  prefixFree_of_read readByte readByte_escapeByte

/-- No byte is written with a quotation mark in front. -/
theorem escapeByte_append_ne (byte : UInt8) (rest rest' : List UInt8) :
    escapeByte byte ++ rest ≠ [0x22] ++ rest' := by
  unfold escapeByte
  split_ifs with hquote <;> simp [hquote]

def quote (s : String) : List UInt8 := 0x22 :: ((utf8 s).flatMap escapeByte ++ [0x22])

theorem prefixFree_quote : PrefixFree quote := by
  intro s s' rest rest' h
  simp only [quote, List.cons_append, List.append_assoc, List.cons.injEq, true_and] at h
  obtain ⟨hbytes, _⟩ :=
    (prefixFree_escapeByte.flatMap_append_inj escapeByte_append_ne).mp h
  exact utf8_injective hbytes

def numeralBytes : List UInt8 :=
  [0x2b, 0x2d, 0x2e, 0x30, 0x31, 0x32, 0x33, 0x34, 0x35, 0x36, 0x37, 0x38, 0x39, 0x45, 0x65]

structure Number where
  text : List UInt8
  text_ne_nil : text ≠ []
  mem_numeralBytes : ∀ byte ∈ text, byte ∈ numeralBytes

def decimal (n : ℕ) : List ℕ := (if n = 0 then [0] else Nat.digits 10 n).reverse

theorem lt_of_mem_decimal {n digit : ℕ} (h : digit ∈ decimal n) : digit < 10 := by
  unfold decimal at h
  rw [List.mem_reverse] at h
  split_ifs at h
  · rw [List.mem_singleton.mp h]
    decide
  · exact Nat.digits_lt_base (by decide) h

def digitByte (digit : ℕ) : UInt8 := UInt8.ofNat (0x30 + digit)

theorem digitByte_mem_numeralBytes {digit : ℕ} (h : digit < 10) :
    digitByte digit ∈ numeralBytes := by
  have hall : ∀ i : Fin 10, digitByte i ∈ numeralBytes := by decide
  exact hall ⟨digit, h⟩

theorem toNat_digitByte {digit : ℕ} (h : digit < 10) : (digitByte digit).toNat = 0x30 + digit :=
  UInt8.toNat_ofNat_of_lt' (by
    change 0x30 + digit < 256
    omega)

namespace Number

def ofNat (n : ℕ) : Number where
  text := (decimal n).map digitByte
  text_ne_nil := by
    unfold decimal
    split_ifs with hn <;> simp [Nat.digits_ne_nil_iff_ne_zero, hn]
  mem_numeralBytes := by
    intro byte h
    obtain ⟨digit, hdigit, rfl⟩ := List.mem_map.mp h
    exact digitByte_mem_numeralBytes (lt_of_mem_decimal hdigit)

/-- The value of a number without sign, fraction or exponent. -/
def toNat (number : Number) : Option ℕ :=
  if number.text.all fun byte => 0x30 ≤ byte.toNat && byte.toNat < 0x3a then
    some (Nat.ofDigits 10 (number.text.map fun byte => byte.toNat - 0x30).reverse)
  else none

@[simp] theorem toNat_ofNat (n : ℕ) : (ofNat n).toNat = some n := by
  have hdigits : (ofNat n).text.all fun byte => 0x30 ≤ byte.toNat && byte.toNat < 0x3a := by
    rw [List.all_eq_true]
    intro byte h
    obtain ⟨digit, hdigit, rfl⟩ := List.mem_map.mp h
    have hlt := lt_of_mem_decimal hdigit
    rw [toNat_digitByte hlt]
    simp
    omega
  have hread : ((ofNat n).text.map fun byte => byte.toNat - 0x30) = decimal n := by
    rw [ofNat, List.map_map]
    conv_rhs => rw [← List.map_id (decimal n)]
    apply List.map_congr_left
    intro digit hdigit
    rw [Function.comp_apply, toNat_digitByte (lt_of_mem_decimal hdigit), Nat.add_sub_cancel_left]
    rfl
  rw [toNat, if_pos hdigits, hread, decimal, List.reverse_reverse]
  split_ifs with hn
  · rw [hn]
    rfl
  · rw [Nat.ofDigits_digits]

end Number

end Json

inductive Json where
  | null
  | bool (value : Bool)
  | number (value : Json.Number)
  | string (value : String)
  | array (items : List Json)
  | object (entries : List (String × Json))

namespace Json

mutual

def render : Json → List UInt8
  | .null => [0x6e, 0x75, 0x6c, 0x6c]
  | .bool true => [0x74, 0x72, 0x75, 0x65]
  | .bool false => [0x66, 0x61, 0x6c, 0x73, 0x65]
  | .number value => value.text
  | .string value => quote value
  | .array [] => [0x5b, 0x5d]
  | .array (item :: items) => 0x5b :: (render item ++ renderItems items)
  | .object [] => [0x7b, 0x7d]
  | .object (entry :: entries) => 0x7b :: (renderEntry entry ++ renderEntries entries)

def renderItems : List Json → List UInt8
  | [] => [0x5d]
  | item :: items => 0x2c :: (render item ++ renderItems items)

def renderEntry : String × Json → List UInt8
  | (key, value) => quote key ++ 0x3a :: render value

def renderEntries : List (String × Json) → List UInt8
  | [] => [0x7d]
  | entry :: entries => 0x2c :: (renderEntry entry ++ renderEntries entries)

end

inductive Kind where
  | null
  | bool
  | number
  | string
  | array
  | object
deriving DecidableEq, Repr

def kind : Json → Kind
  | .null => .null
  | .bool _ => .bool
  | .number _ => .number
  | .string _ => .string
  | .array _ => .array
  | .object _ => .object

def kindOfByte (byte : UInt8) : Option Kind :=
  if byte = 0x6e then some .null
  else if byte = 0x74 ∨ byte = 0x66 then some .bool
  else if byte = 0x22 then some .string
  else if byte = 0x5b then some .array
  else if byte = 0x7b then some .object
  else if byte ∈ numeralBytes then some .number
  else none

theorem kindOfByte_of_mem {byte : UInt8} (h : byte ∈ numeralBytes) :
    kindOfByte byte = some .number := by
  have hall : numeralBytes.all fun byte => kindOfByte byte = some .number := by decide
  exact of_decide_eq_true (List.all_eq_true.mp hall byte h)

/-- The first byte of a text shows the kind of its value. -/
theorem render_eq_cons (json : Json) :
    ∃ byte bytes, json.render = byte :: bytes ∧ kindOfByte byte = some json.kind := by
  cases json with
  | null => exact ⟨_, _, rfl, rfl⟩
  | bool value => cases value <;> exact ⟨_, _, rfl, rfl⟩
  | number value =>
      obtain ⟨byte, bytes, htext⟩ := List.exists_cons_of_ne_nil value.text_ne_nil
      refine ⟨byte, bytes, by rw [render, htext], ?_⟩
      exact kindOfByte_of_mem (value.mem_numeralBytes byte (by simp [htext]))
  | string value => exact ⟨_, _, by rw [render, quote], rfl⟩
  | array items =>
      cases items with
      | nil => exact ⟨_, _, by rw [render], rfl⟩
      | cons item items => exact ⟨_, _, by rw [render], rfl⟩
  | object entries =>
      cases entries with
      | nil => exact ⟨_, _, by rw [render], rfl⟩
      | cons entry entries => exact ⟨_, _, by rw [render], rfl⟩

theorem kind_eq_of_render {json json' : Json} {rest rest' : List UInt8}
    (h : json.render ++ rest = json'.render ++ rest') : json.kind = json'.kind := by
  obtain ⟨byte, bytes, hrender, hkind⟩ := render_eq_cons json
  obtain ⟨byte', bytes', hrender', hkind'⟩ := render_eq_cons json'
  rw [hrender, hrender', List.cons_append, List.cons_append] at h
  rw [(List.cons.inj h).1, hkind'] at hkind
  exact (Option.some.inj hkind).symm

/-- No value is written with a closing bracket in front. -/
theorem render_append_ne (json : Json) (rest rest' : List UInt8) :
    json.render ++ rest ≠ 0x5d :: rest' := by
  obtain ⟨byte, bytes, hrender, hkind⟩ := render_eq_cons json
  rw [hrender, List.cons_append]
  intro h
  rw [(List.cons.inj h).1] at hkind
  cases hkind

/-- No entry is written with a closing brace in front. -/
theorem renderEntry_append_ne (entry : String × Json) (rest rest' : List UInt8) :
    renderEntry entry ++ rest ≠ 0x7d :: rest' := by
  obtain ⟨key, value⟩ := entry
  simp [renderEntry, quote]

/-- The text does not go on with a byte that a number may contain. -/
def Ends (rest : List UInt8) : Prop := ∀ byte ∈ rest.head?, byte ∉ numeralBytes

theorem ends_renderItems (items : List Json) (rest : List UInt8) :
    Ends (renderItems items ++ rest) := by
  intro byte hbyte
  cases items <;> simp [renderItems] at hbyte <;> subst hbyte <;> decide

theorem ends_renderEntries (entries : List (String × Json)) (rest : List UInt8) :
    Ends (renderEntries entries ++ rest) := by
  intro byte hbyte
  cases entries <;> simp [renderEntries] at hbyte <;> subst hbyte <;> decide

theorem numerals_append_inj {text text' rest rest' : List UInt8}
    (htext : ∀ byte ∈ text, byte ∈ numeralBytes) (htext' : ∀ byte ∈ text', byte ∈ numeralBytes)
    (hrest : Ends rest) (hrest' : Ends rest') (h : text ++ rest = text' ++ rest') :
    text = text' ∧ rest = rest' := by
  induction text generalizing text' with
  | nil =>
      cases text' with
      | nil => exact ⟨rfl, h⟩
      | cons byte' text' =>
          rw [List.nil_append] at h
          exact absurd (htext' byte' (by simp)) (hrest byte' (by rw [h]; rfl))
  | cons byte text ih =>
      cases text' with
      | nil =>
          rw [List.nil_append] at h
          exact absurd (htext byte (by simp)) (hrest' byte (by rw [← h]; rfl))
      | cons byte' text' =>
          obtain ⟨rfl, htail⟩ := List.cons.inj h
          obtain ⟨rfl, hrests⟩ := ih (fun b hb => htext b (List.mem_cons_of_mem _ hb))
            (fun b hb => htext' b (List.mem_cons_of_mem _ hb)) htail
          exact ⟨rfl, hrests⟩

mutual

/-- The value and what follows its text, both read off the bytes. The induction
follows `render`. -/
theorem render_append_inj : ∀ (json json' : Json) {rest rest' : List UInt8},
    Ends rest → Ends rest' → json.render ++ rest = json'.render ++ rest' →
      json = json' ∧ rest = rest'
  | .null, json', _, _, _, _, h => by
      have hkind := kind_eq_of_render h
      cases json' <;> cases hkind
      exact ⟨rfl, List.append_cancel_left h⟩
  | .bool value, json', _, _, _, _, h => by
      have hkind := kind_eq_of_render h
      cases json' <;> cases hkind
      rename_i value'
      cases value <;> cases value' <;> simp [render] at h
      · exact ⟨rfl, h⟩
      · exact ⟨rfl, h⟩
  | .number value, json', _, _, hrest, hrest', h => by
      have hkind := kind_eq_of_render h
      cases json' <;> cases hkind
      rename_i value'
      rw [render, render] at h
      obtain ⟨htext, hrests⟩ := numerals_append_inj value.mem_numeralBytes
        value'.mem_numeralBytes hrest hrest' h
      cases value
      cases value'
      obtain rfl := htext
      exact ⟨rfl, hrests⟩
  | .string value, json', _, _, _, _, h => by
      have hkind := kind_eq_of_render h
      cases json' <;> cases hkind
      rw [render, render] at h
      obtain ⟨rfl, hrests⟩ := prefixFree_quote.append_inj.mp h
      exact ⟨rfl, hrests⟩
  | .array [], json', _, _, _, _, h => by
      have hkind := kind_eq_of_render h
      cases json' <;> cases hkind
      rename_i items'
      cases items' with
      | nil => exact ⟨rfl, List.append_cancel_left h⟩
      | cons item' items' =>
          simp only [render, List.cons_append, List.append_assoc, List.cons.injEq, true_and] at h
          exact absurd h.symm (render_append_ne item' _ _)
  | .array (item :: items), json', _, _, _, _, h => by
      have hkind := kind_eq_of_render h
      cases json' <;> cases hkind
      rename_i items'
      cases items' with
      | nil =>
          simp only [render, List.cons_append, List.append_assoc, List.cons.injEq, true_and] at h
          exact absurd h (render_append_ne item _ _)
      | cons item' items' =>
          simp only [render, List.cons_append, List.append_assoc, List.cons.injEq, true_and] at h
          obtain ⟨rfl, htail⟩ := render_append_inj item item' (ends_renderItems _ _)
            (ends_renderItems _ _) h
          obtain ⟨rfl, hrests⟩ := renderItems_append_inj items items' htail
          exact ⟨rfl, hrests⟩
  | .object [], json', _, _, _, _, h => by
      have hkind := kind_eq_of_render h
      cases json' <;> cases hkind
      rename_i entries'
      cases entries' with
      | nil => exact ⟨rfl, List.append_cancel_left h⟩
      | cons entry' entries' =>
          simp only [render, List.cons_append, List.append_assoc, List.cons.injEq, true_and] at h
          exact absurd h.symm (renderEntry_append_ne entry' _ _)
  | .object (entry :: entries), json', _, _, _, _, h => by
      have hkind := kind_eq_of_render h
      cases json' <;> cases hkind
      rename_i entries'
      cases entries' with
      | nil =>
          simp only [render, List.cons_append, List.append_assoc, List.cons.injEq, true_and] at h
          exact absurd h (renderEntry_append_ne entry _ _)
      | cons entry' entries' =>
          simp only [render, List.cons_append, List.append_assoc, List.cons.injEq, true_and] at h
          obtain ⟨rfl, htail⟩ := renderEntry_append_inj entry entry' (ends_renderEntries _ _)
            (ends_renderEntries _ _) h
          obtain ⟨rfl, hrests⟩ := renderEntries_append_inj entries entries' htail
          exact ⟨rfl, hrests⟩

theorem renderItems_append_inj : ∀ (items items' : List Json) {rest rest' : List UInt8},
    renderItems items ++ rest = renderItems items' ++ rest' → items = items' ∧ rest = rest'
  | [], [], _, _, h => ⟨rfl, List.append_cancel_left h⟩
  | [], _ :: _, _, _, h => by simp [renderItems] at h
  | _ :: _, [], _, _, h => by simp [renderItems] at h
  | item :: items, item' :: items', _, _, h => by
      simp only [renderItems, List.cons_append, List.append_assoc, List.cons.injEq, true_and] at h
      obtain ⟨rfl, htail⟩ := render_append_inj item item' (ends_renderItems _ _)
        (ends_renderItems _ _) h
      obtain ⟨rfl, hrests⟩ := renderItems_append_inj items items' htail
      exact ⟨rfl, hrests⟩

theorem renderEntry_append_inj : ∀ (entry entry' : String × Json) {rest rest' : List UInt8},
    Ends rest → Ends rest' → renderEntry entry ++ rest = renderEntry entry' ++ rest' →
      entry = entry' ∧ rest = rest'
  | (key, value), (key', value'), _, _, hrest, hrest', h => by
      simp only [renderEntry, List.cons_append, List.append_assoc] at h
      obtain ⟨rfl, htail⟩ := prefixFree_quote.append_inj.mp h
      obtain ⟨rfl, hrests⟩ := render_append_inj value value' hrest hrest' (List.cons.inj htail).2
      exact ⟨rfl, hrests⟩

theorem renderEntries_append_inj : ∀ (entries entries' : List (String × Json))
    {rest rest' : List UInt8}, renderEntries entries ++ rest = renderEntries entries' ++ rest' →
      entries = entries' ∧ rest = rest'
  | [], [], _, _, h => ⟨rfl, List.append_cancel_left h⟩
  | [], _ :: _, _, _, h => by simp [renderEntries] at h
  | _ :: _, [], _, _, h => by simp [renderEntries] at h
  | entry :: entries, entry' :: entries', _, _, h => by
      simp only [renderEntries, List.cons_append, List.append_assoc, List.cons.injEq,
        true_and] at h
      obtain ⟨rfl, htail⟩ := renderEntry_append_inj entry entry' (ends_renderEntries _ _)
        (ends_renderEntries _ _) h
      obtain ⟨rfl, hrests⟩ := renderEntries_append_inj entries entries' htail
      exact ⟨rfl, hrests⟩

end

theorem render_injective : Function.Injective render := by
  intro json json' h
  have hends : Ends [] := fun byte hbyte => by cases hbyte
  exact (render_append_inj json json' hends hends (by rw [h])).1

end Json

end Codec

end Foundation
